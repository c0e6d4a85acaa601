/-!
# Arguments

Reading a list of arguments against a grammar of options. Options are written `--name value` or
`--name=value`, flags `--name`, and all other arguments are words. After `--` everything is a word.
An argument that begins with `-` is never the value of an option, unless it is `-` alone.

Arguments are read from left to right, and the first one that asks for help or the version, or does
not fit, ends the reading. A value after `=` is checked at once. An option whose value is an
argument of its own is checked when the argument after that is read, and at the end.
-/

namespace FilterClause

/-- How often an option may occur, and whether it has a value. -/
inductive OptionKind
  | flag
  | single
  | nonempty
  | repeated
  deriving DecidableEq, Repr

/-- The options and the number of words that a command takes. Where subcommands are expected the
first word ends the reading. -/
structure ArgumentGrammar where
  options : List (String × OptionKind)
  words : Nat
  hasSubcommands : Bool
  hasVersion : Bool

/-- Why the reading of arguments ends early. -/
inductive Stop
  | help
  | version
  | misuse
  deriving DecidableEq, Repr

/-- The options, with their values, and the words that were read, in order. -/
structure Arguments where
  options : List (String × String)
  words : List String
  deriving DecidableEq, Repr

namespace Arguments

/-- No arguments. -/
def empty : Arguments := ⟨[], []⟩

/-- The values of an option, in order. -/
def values (a : Arguments) (name : String) : List String :=
  (a.options.filter (·.1 = name)).map Prod.snd

/-- The value of an option that is given once. -/
def value? (a : Arguments) (name : String) : Option String :=
  (a.values name).head?

/-- A flag is set when it was given. -/
def isSet (a : Arguments) (name : String) : Bool :=
  !(a.values name).isEmpty

end Arguments

/-! ## Single arguments -/

/-- What an argument looks like. -/
inductive Argument
  | escape
  | long (name : List Char) (value : Option (List Char))
  | short (letter : Char)
  | word

/-- The look of an argument. A long option may have its value after `=`. -/
def Argument.ofChars : List Char → Argument
  | ['-', '-'] => .escape
  | '-' :: '-' :: rest =>
    .long (rest.takeWhile (· ≠ '='))
      (match rest.dropWhile (· ≠ '=') with
      | [] => none
      | _ :: value => some value)
  | '-' :: letter :: _ => .short letter
  | _ => .word

/-- An argument that can be the value of the option before it. -/
def Argument.isValue (arg : String) : Bool :=
  match Argument.ofChars arg.toList with
  | .word => true
  | .escape | .long _ _ | .short _ => false

/-! ## Lists of arguments -/

namespace ArgumentGrammar

/-- The options as given fit the grammar: only repeated ones occur more than once, and those that
must not be empty are not. -/
def accepts (g : ArgumentGrammar) (a : Arguments) : Bool :=
  g.options.all fun (name, kind) =>
    match kind with
    | .flag | .single => (a.values name).length ≤ 1
    | .nonempty => (a.values name).length ≤ 1 && (a.values name).all (· ≠ "")
    | .repeated => true

/-- Adds words at the end, as many as the grammar takes. -/
def addWords (g : ArgumentGrammar) (a : Arguments) (words : List String) :
    Except Stop (Arguments × List String) :=
  if a.words.length + words.length ≤ g.words then .ok (⟨a.options, a.words ++ words⟩, [])
  else .error .misuse

/-- Reads arguments after those read before. What is left over is a subcommand with its arguments,
where subcommands are expected. -/
def readFrom (g : ArgumentGrammar) (a : Arguments) (args : List String) :
    Except Stop (Arguments × List String) :=
  match args with
  | [] => .ok (a, [])
  | arg :: rest =>
    match Argument.ofChars arg.toList with
    | .word =>
      if g.hasSubcommands then .ok (a, arg :: rest)
      else if !g.accepts a || g.words ≤ a.words.length then .error .misuse
      else g.readFrom ⟨a.options, a.words ++ [arg]⟩ rest
    | .escape => if g.accepts a && !g.hasSubcommands then g.addWords a rest else .error .misuse
    | .short letter =>
      if !g.accepts a then .error .misuse
      else if letter = 'h' then .error .help
      else if letter = 'V' && g.hasVersion then .error .version
      else .error .misuse
    | .long name value =>
      let name := String.ofList name
      if !g.accepts a then .error .misuse
      else
        match value, rest with
        | none, rest =>
          if name = "help" then .error .help
          else if name = "version" && g.hasVersion then .error .version
          else
            match g.options.lookup name, rest with
            | none, _ => .error .misuse
            | some .flag, rest => g.readFrom ⟨a.options ++ [(name, "")], a.words⟩ rest
            | some _, [] => .error .misuse
            | some _, given :: rest =>
              if Argument.isValue given then
                g.readFrom ⟨a.options ++ [(name, given)], a.words⟩ rest
              else .error .misuse
        | some value, rest =>
          match g.options.lookup name with
          | none | some .flag => .error .misuse
          | some _ =>
            let a : Arguments := ⟨a.options ++ [(name, String.ofList value)], a.words⟩
            if g.accepts a then g.readFrom a rest else .error .misuse
termination_by args.length

/-- Reads arguments. -/
def read (g : ArgumentGrammar) (args : List String) : Except Stop (Arguments × List String) :=
  g.readFrom .empty args

end ArgumentGrammar

end FilterClause
