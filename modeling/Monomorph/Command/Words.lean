/-!
# Words of a Command Line

How the words of a command line fall into options, their values and operands,
before anything is known about what they mean. A long option has its value
after an equals sign or in the next word; short options may be run together,
and one that takes a value takes the rest of its word or the next word. A value
in a word of its own may not look like an option. After two hyphens all words
are operands.

Asking for help or for the version ends the line at once, whatever follows; so
does the name of a command, after which that command's own options apply.

## Main definitions

* `Spec`: An option that may be given.
* `Grammar`: What may stand on a line.
* `Token`: An option, an option with its value, or an operand.
* `Ending`: How a line ends.
* `Grammar.split`: The tokens of a line and how it ends.
-/

namespace Monomorph

namespace Command

/-- An option that may be given, by its long name or by a letter. -/
structure Spec where
  long : String
  short : Option Char := none
  takesValue : Bool := false

/-- What may stand on a line: options, and commands; and whether the version may
    be asked for. -/
structure Grammar where
  specs : List Spec
  commands : List String := []
  versioned : Bool := false

/-- A part of a line: an option, an option with its value, or an operand.
    Options go by their long names. -/
inductive Token where
  | flag (name : String)
  | valued (name : String) (value : String)
  | operand (text : String)
deriving DecidableEq, Repr

/-- How a line ends: of itself, with a command and its words, by asking for help
    or the version, or with a word that cannot stand there. -/
inductive Ending where
  | finished
  | command (name : String) (rest : List String)
  | help
  | version
  | invalid
deriving DecidableEq, Repr

/-- Whether a word looks like an option. -/
def looksLikeOption (word : String) : Bool :=
  match word.toList with
  | '-' :: _ :: _ => true
  | _ => false

/-- What a word of short options comes to: its options, and how it goes on. -/
inductive Cluster where
  | done (tokens : List Token)
  | awaits (tokens : List Token) (name : String)
  | stops (tokens : List Token) (ending : Ending)

/-- The cluster with a token before it. -/
def Cluster.after (token : Token) : Cluster → Cluster
  | done tokens => done (token :: tokens)
  | awaits tokens name => awaits (token :: tokens) name
  | stops tokens ending => stops (token :: tokens) ending

namespace Grammar

/-- The option with a long name. -/
def byName? (g : Grammar) (name : String) : Option Spec :=
  g.specs.find? fun spec => spec.long == name

/-- The option with a letter. -/
def byLetter? (g : Grammar) (letter : Char) : Option Spec :=
  g.specs.find? fun spec => spec.short == some letter

/-- The value that stands in the same word as the letter of its option, where an
    equals sign before it does not count. -/
def attached : List Char → String
  | '=' :: value => String.ofList value
  | value => String.ofList value

/-- Takes a word of short options apart, after its hyphen. -/
def cluster (g : Grammar) : List Char → Cluster
  | [] => .done []
  | letter :: rest =>
    if letter == 'h' then .stops [] .help
    else if letter == 'V' && g.versioned then .stops [] .version
    else
      match g.byLetter? letter with
      | none => .stops [] .invalid
      | some spec =>
        if spec.takesValue then
          if rest.isEmpty then .awaits [] spec.long
          else .done [.valued spec.long (attached rest)]
        else (cluster g rest).after (.flag spec.long)

/-- The name and the value of a long option, after its hyphens. -/
def nameAndValue (chars : List Char) : String × Option String :=
  let name := String.ofList (chars.takeWhile (· != '='))
  match chars.dropWhile (· != '=') with
  | [] => (name, none)
  | _ :: value => (name, some (String.ofList value))

/-- What a long option comes to, after its hyphens. -/
def long (g : Grammar) (chars : List Char) : Cluster :=
  match nameAndValue chars with
  | (name, value?) =>
    match g.byName? name, value? with
    | some spec, some value =>
      if spec.takesValue then .done [.valued name value] else .stops [] .invalid
    | some spec, none => if spec.takesValue then .awaits [] name else .done [.flag name]
    | none, none =>
      if name == "help" then .stops [] .help
      else if name == "version" && g.versioned then .stops [] .version
      else .stops [] .invalid
    | none, some _ => .stops [] .invalid

/-- What a word that looks like an option comes to. -/
def option (g : Grammar) (word : String) : Cluster :=
  match word.toList with
  | '-' :: '-' :: name => g.long name
  | _ :: letters => g.cluster letters
  | [] => .stops [] .invalid

/-- The tokens of a line, and how it ends. -/
def split (g : Grammar) : List String → List Token × Ending
  | [] => ([], .finished)
  | word :: rest =>
    if word == "--" then (rest.map .operand, .finished)
    else if looksLikeOption word then
      match g.option word, rest with
      | .stops tokens ending, _ => (tokens, ending)
      | .done tokens, rest =>
        let (later, ending) := split g rest
        (tokens ++ later, ending)
      | .awaits tokens _, [] => (tokens, .invalid)
      | .awaits tokens name, value :: rest =>
        if looksLikeOption value then (tokens, .invalid)
        else
          let (later, ending) := split g rest
          (tokens ++ .valued name value :: later, ending)
    else if g.commands.contains word then ([], .command word rest)
    else
      let (later, ending) := split g rest
      (.operand word :: later, ending)

end Grammar

end Command

end Monomorph
