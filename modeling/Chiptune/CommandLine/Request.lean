import Chiptune.CommandLine.Options

/-! # Command line requests

The arguments of a call are read from left to right.  An option is given at most once, and its
value stands behind it or behind an equals sign.  Asking for help or for the version ends the
reading: what comes before it must be understood, but what comes behind it does not matter, as
`read?_append` says. -/

namespace Chiptune
namespace CommandLine

/-- What a call of the program asks for. -/
inductive Request where
  /-- To play, or to audition an instrument. -/
  | play (options : Options)
  /-- To explain the options. -/
  | help
  /-- To name the program and its version. -/
  | version
  deriving DecidableEq, Repr

/-- One argument that is not the value of the one before. -/
inductive Argument where
  /-- An option, with the value behind its equals sign, if there is one. -/
  | option (flag : Flag) (value : Option String)
  /-- The wish for help. -/
  | help
  /-- The wish for the version. -/
  | version
  deriving DecidableEq, Repr

namespace Argument

/-- Whether an argument looks like an option, so that it cannot be the value of the one before. -/
def looksLikeOption (arg : String) : Bool :=
  match arg.toList with
  | '-' :: _ :: _ => true
  | _ => false

/-- The argument of a name and a value behind an equals sign, if there is one. -/
def ofName? (name : String) (value : Option String) : Option Argument :=
  if name = "help" then if value.isSome then none else some help
  else if name = "version" then if value.isSome then none else some version
  else (Flag.ofName? name).map fun f => option f value

/-- Read an argument.  Names stand behind two dashes; behind a single one the first letter asks for
help or for the version. -/
def ofString? (arg : String) : Option Argument :=
  match arg.toList with
  | '-' :: '-' :: cs =>
      let name := String.ofList (cs.takeWhile fun c => c != '=')
      match cs.dropWhile fun c => c != '=' with
      | _ :: value => ofName? name (some (String.ofList value))
      | [] => ofName? name none
  | '-' :: 'h' :: _ => some help
  | '-' :: 'V' :: _ => some version
  | _ => none

end Argument

/-- The options that were read so far. -/
structure Reading where
  /-- Their values. -/
  options : Options := {}
  /-- Which ones were given. -/
  given : List Flag := []
  deriving DecidableEq, Repr

/-- Take up an option with its value.  An option that was given before is refused, and so is a value
that it cannot have. -/
def Reading.take? (r : Reading) (f : Flag) (value : String) : Option Reading :=
  if f ∈ r.given then none
  else (r.options.set? f value).map fun options => { options, given := f :: r.given }

namespace Request

/-- Read the arguments that are left; there is no request if they cannot be understood.  Two dashes
may end the list. -/
def read? (r : Reading) : List String → Option Request
  | [] => some (.play r.options)
  | ["--"] => some (.play r.options)
  | arg :: rest =>
      match Argument.ofString? arg with
      | some .help => some .help
      | some .version => some .version
      | some (.option f (some value)) =>
          if f.takesValue then
            match r.take? f value with
            | some r => read? r rest
            | none => none
          else none
      | some (.option f none) =>
          if f.takesValue then
            match rest with
            | value :: rest =>
                if Argument.looksLikeOption value then none
                else match r.take? f value with
                  | some r => read? r rest
                  | none => none
            | [] => none
          else match r.take? f "" with
            | some r => read? r rest
            | none => none
      | none => none

/-- What a call with some arguments asks for. -/
def ofArguments? (args : List String) : Option Request :=
  read? {} args

/-- **Only the wish to play takes all arguments.**  Where another one has been read, it does not
matter what follows. -/
theorem read?_append {r : Reading} {args : List String} {request : Request}
    (h : read? r args = some request) (hends : ∀ options, request ≠ .play options)
    (rest : List String) : read? r (args ++ rest) = some request := by
  -- two dashes that end the list are left for a wish to play
  have hdashes {arg : String} {args : List String} (hargs : arg = "--" → args = [] → False) :
      arg = "--" → args ++ rest = [] → False :=
    fun harg hnil => hargs harg (List.append_eq_nil_iff.mp hnil).1
  fun_induction read? r args with
  | case1 r | case2 r => exact absurd (Option.some.inj h).symm (hends _)
  | case3 r arg args hargs harg | case4 r arg args hargs harg =>
      rw [List.cons_append, read?, harg]
      · exact h
      · exact hdashes hargs
  | case5 r arg args hargs f value harg htakes r' htake ih =>
      rw [List.cons_append, read?, harg]
      · dsimp only
        rw [if_pos htakes, htake]
        exact ih h
      · exact hdashes hargs
  | case9 r arg f harg htakes value args hvalue r' htake hargs ih =>
      rw [List.cons_append, List.cons_append, read?, harg]
      · dsimp only
        rw [if_pos htakes, if_neg hvalue, htake]
        exact ih h
      · exact nofun
  | case12 r arg args hargs f harg htakes r' htake ih =>
      rw [List.cons_append, read?, harg]
      · dsimp only
        rw [if_neg htakes, htake]
        exact ih h
      · exact hdashes hargs
  | _ => cases h

end Request
end CommandLine
end Chiptune
