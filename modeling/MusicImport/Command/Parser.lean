import MusicImport.Command.Options

/-! Reading a command line from left to right. The first mistake or the first request for help
decides; what is missing shows at the end. -/
namespace MusicImport

/-- What one word of a command line makes of the options given so far. -/
inductive WordResult
  | given (g : Given)
  /-- The option takes the next word as its value. -/
  | awaits (o : CommandOption)
  | help
  | misuse

/-- Gives an option, which may not be repeated and whose value has to fit. -/
def give (o : CommandOption) (value : String) (g : Given) : WordResult :=
  if g.any (·.1 == o.name) || !(o.value.all (·.accepts value)) then .misuse
  else .given (g ++ [(o.name, value)])

/-- A long option without its dashes. -/
def readLong (options : List CommandOption) (word : List Char) (g : Given) : WordResult :=
  let name := String.ofList (word.takeWhile (· != '='))
  let value : Option String :=
    match word.dropWhile (· != '=') with
    | [] => none
    | _ :: v => some (String.ofList v)
  if name = helpName then if value.isNone then .help else .misuse
  else
    match options.find? (·.name == name), value with
    | none, _ => .misuse
    | some o, none => if o.value.isSome then .awaits o else give o "" g
    | some o, some v => if o.value.isSome then give o v g else .misuse

/-- Letters behind a single dash: switches, and at the end perhaps an option with its value. -/
def readLetters (options : List CommandOption) : List Char → Given → WordResult
  | [], g => .given g
  | c :: rest, g =>
    if c = 'h' then .help
    else
      match options.find? (·.letter == some c) with
      | none => .misuse
      | some o =>
        if o.value.isSome then
          match rest with
          | [] => .awaits o
          | '=' :: v => give o (String.ofList v) g
          | v => give o (String.ofList v) g
        else
          match give o "" g with
          | .given g => readLetters options rest g
          | r => r

/-- Whether a word is an option and not a value. A single dash is a value. -/
def isOptionWord (word : String) : Bool :=
  match word.toList with
  | '-' :: _ :: _ => true
  | _ => false

/-- A word that is an option. -/
def readWord (options : List CommandOption) (word : String) (g : Given) : WordResult :=
  match word.toList with
  | '-' :: '-' :: name => readLong options name g
  | _ :: letters => readLetters options letters g
  | [] => .misuse

/-- The options and the paths of a subcommand. Behind two dashes all words are paths. -/
structure SubcommandWords where
  given : Given := []
  paths : List String := []

/-- The end of reading a subcommand. -/
inductive SubcommandResult
  | words (w : SubcommandWords)
  | help
  | misuse

/-- Takes a path, where there is room for one. -/
def SubcommandWords.addPath? (s : Subcommand) (word : String) (w : SubcommandWords) :
    Option SubcommandWords :=
  if s.path.isSome && w.paths.isEmpty && word != "" then some { w with paths := [word] } else none

/-- Words behind two dashes. -/
def readPaths (s : Subcommand) : List String → SubcommandWords → SubcommandResult
  | [], w => .words w
  | word :: rest, w =>
    match w.addPath? s word with
    | some w => readPaths s rest w
    | none => .misuse

/-- The words of a subcommand; `waiting` is an option that waits for its value. -/
def readSubcommand (s : Subcommand) (options : List CommandOption) :
    (waiting : Option CommandOption) → List String → SubcommandWords → SubcommandResult
  | none, [], w => .words w
  | some _, [], _ => .misuse
  | some o, word :: rest, w =>
    if isOptionWord word then .misuse
    else
      match give o word w.given with
      | .given g => readSubcommand s options none rest { w with given := g }
      | _ => .misuse
  | none, word :: rest, w =>
    if word = "--" then readPaths s rest w
    else if isOptionWord word then
      match readWord options word w.given with
      | .given g => readSubcommand s options none rest { w with given := g }
      | .awaits o => readSubcommand s options (some o) rest w
      | .help => .help
      | .misuse => .misuse
    else
      match w.addPath? s word with
      | some w => readSubcommand s options none rest w
      | none => .misuse

/-- The shared options from before and behind the subcommand's name, the former first, and then
from variables; none if a value does not fit. -/
def sharedGiven? (vars : Variables) (before behind : Given) : Option Given :=
  sharedOptions.foldlM (fun g o =>
    match (before.lookup o.name).or (behind.lookup o.name) with
    | some v => some (g ++ [(o.name, v)])
    | none =>
      match o.fallback.bind fun v => vars.lookup v with
      | none => some g
      | some v => if o.value.all (·.accepts v) then some (g ++ [(o.name, v)]) else none) []

/-- The request of a subcommand whose words are all read. -/
def subcommandRequest (s : Subcommand) (vars : Variables) (before : Given)
    (w : SubcommandWords) : Request :=
  match sharedGiven? vars before w.given with
  | none => .misuse
  | some shared =>
    match s.path, w.paths with
    | none, _ => .stats shared
    | some _, path :: _ => .importing ⟨path⟩ shared w.given
    | some _, [] => .misuse

/-- What is to be explained, by the words behind the name of the help. -/
def helpRequest : List String → Request
  | [] => .explain .command
  | [name] =>
    if name = helpName then .explain .help
    else
      match subcommands.find? (·.name == name) with
      | some s => .explain (.subcommand s)
      | none => .misuse
  | _ => .misuse

/-- The words from a subcommand's name on. -/
def nameRequest (vars : Variables) (before : Given) (name : String)
    (rest : List String) : Request :=
  if name = helpName then helpRequest rest
  else
    match subcommands.find? (·.name == name) with
    | none => .misuse
    | some s =>
      match readSubcommand s (sharedOptions ++ s.options) none rest {} with
      | .words w => subcommandRequest s vars before w
      | .help => .explain (.subcommand s)
      | .misuse => .misuse

/-- The words of a command line; `waiting` is a shared option that waits for its value. -/
def readRequest (vars : Variables) :
    (waiting : Option CommandOption) → List String → Given → Request
  | _, [], _ => .misuse
  | some o, word :: rest, g =>
    if isOptionWord word then .misuse
    else
      match give o word g with
      | .given g => readRequest vars none rest g
      | _ => .misuse
  | none, word :: rest, g =>
    if word = "--" then .misuse
    else if isOptionWord word then
      match readWord sharedOptions word g with
      | .given g => readRequest vars none rest g
      | .awaits o => readRequest vars (some o) rest g
      | .help => .explain .command
      | .misuse => .misuse
    else nameRequest vars g word rest

/-- What a command line asks for, with the environment variables. -/
def Request.ofWords (vars : Variables) (words : List String) : Request :=
  readRequest vars none words []

end MusicImport
