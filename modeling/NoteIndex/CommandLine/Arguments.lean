import NoteIndex.Text.Split

/-!
# Arguments of the command line

A command line names a command, with options before and after the name. Options before the name are
general; the same may be given again after it, and then count instead. An option has a long name
after two dashes, and some have a letter after one; letters may be joined. A value follows its
option, or is joined to it. Two dashes alone end the options of a command. A request for help or for
the version is answered as soon as it is met.
-/

namespace NoteIndex.CommandLine

inductive Format where
  | human | json
  deriving DecidableEq, Repr

def Format.ofName? (s : String) : Option Format :=
  match s with
  | "human" => some .human
  | "json" => some .json
  | _ => none

/-- A shell that completes commands. -/
inductive Shell where
  | bash | elvish | fish | powershell | zsh
  deriving DecidableEq, Repr

def Shell.ofName? (s : String) : Option Shell :=
  match s with
  | "bash" => some .bash
  | "elvish" => some .elvish
  | "fish" => some .fish
  | "powershell" => some .powershell
  | "zsh" => some .zsh
  | _ => none

inductive Command where
  /-- Builds the index, anew if `full`. -/
  | index (full : Bool)
  | query (text : String) (format : Format)
  | search (text : String) (format : Format)
  | tags (counts : Bool) (format : Format)
  | show (note : String) (format : Format)
  | backlinks (note : String) (format : Format)
  | linking (target : String) (format : Format)
  | matching (key value : String) (format : Format)
  /-- Checks the index, without warnings if `quiet`. -/
  | check (quiet : Bool)
  | completions (shell : Shell)
  deriving DecidableEq, Repr

structure Invocation where
  dir : Option String
  notes : Option String
  verbose : Bool
  command : Command
  deriving DecidableEq, Repr

/-- Why no command is run. -/
inductive Stop where
  | help | version
  /-- The arguments make no sense. -/
  | usage
  deriving DecidableEq, Repr

inductive Setting where
  | dir | notes | verbose | help | version | full | counts | quiet | format
  deriving DecidableEq, Repr

namespace Setting

def long : Setting → String
  | .dir => "dir"
  | .notes => "notes"
  | .verbose => "verbose"
  | .help => "help"
  | .version => "version"
  | .full => "full"
  | .counts => "counts"
  | .quiet => "quiet"
  | .format => "format"

def letter? : Setting → Option Char
  | .dir => some 'd'
  | .verbose => some 'v'
  | .help => some 'h'
  | .version => some 'V'
  | .quiet => some 'q'
  | .format => some 'f'
  | _ => none

def takesValue : Setting → Bool
  | .dir => true
  | .notes => true
  | .format => true
  | _ => false

/-- Whether an option may have this value. -/
def admits (o : Setting) (value : String) : Bool :=
  match o with
  | .dir => !value.isEmpty
  | .notes => !value.isEmpty
  | .format => (Format.ofName? value).isSome
  | _ => true

/-- The options that every command has. -/
def general : List Setting := [.dir, .notes, .verbose, .help]

end Setting

/-- The name of a command. -/
inductive Verb where
  | index | query | search | tags | show | backlinks | linking | matching | check | completions
  deriving DecidableEq, Repr

namespace Verb

def name : Verb → String
  | .index => "index"
  | .query => "query"
  | .search => "search"
  | .tags => "tags"
  | .show => "show"
  | .backlinks => "backlinks"
  | .linking => "linking"
  | .matching => "where"
  | .check => "check"
  | .completions => "completions"

def all : List Verb :=
  [.index, .query, .search, .tags, .show, .backlinks, .linking, .matching, .check, .completions]

def ofName? (s : String) : Option Verb := all.find? fun v => v.name == s

def settings : Verb → List Setting
  | .index => .full :: Setting.general
  | .tags => .counts :: .format :: Setting.general
  | .check => .quiet :: Setting.general
  | .completions => Setting.general
  | _ => .format :: Setting.general

/-- How many operands the command has, all of which it needs. -/
def operands : Verb → Nat
  | .index => 0
  | .tags => 0
  | .check => 0
  | .matching => 2
  | _ => 1

/-- Whether an operand may stand for the command's. -/
def admits (v : Verb) (operand : String) : Bool :=
  match v with
  | .completions => (Shell.ofName? operand).isSome
  | _ => true

end Verb

/-- What has been read of the arguments at one side of the command's name. -/
structure Given where
  /-- Options with their values; an option without a value has an empty one. -/
  settings : List (Setting × String)
  operands : List String
  /-- The option read last, while its value is missing or has not been looked at. -/
  pending : Option (Setting × Option String)

namespace Given

def none : Given := ⟨[], [], .none⟩

def value? (g : Given) (o : Setting) : Option String :=
  (g.settings.find? fun s => s.1 == o).map Prod.snd

def has (g : Given) (o : Setting) : Bool := (g.value? o).isSome

/-- Takes an option in; only verbosity may be given again. -/
def take (g : Given) (o : Setting) (value : String) : Except Stop Given :=
  if ¬ o.admits value ∨ (o ≠ .verbose ∧ g.has o) then .error .usage
  else .ok { g with settings := g.settings ++ [(o, value)] }

/-- Takes the pending option in, which must have its value by now. -/
def settle (g : Given) : Except Stop Given :=
  match g.pending with
  | .none => .ok g
  | some (_, .none) => .error .usage
  | some (o, some value) => take { g with pending := .none } o value

/-- Takes in an option without a value; two of them end the reading. -/
def flag (g : Given) (o : Setting) : Except Stop Given := do
  let g ← g.settle
  match o with
  | .help => .error .help
  | .version => .error .version
  | _ => g.take o ""

/-- Takes in an option that has a value, joined to it or to follow. -/
def valued (g : Given) (o : Setting) (joined : Option String) : Except Stop Given := do
  let g ← g.settle
  match joined with
  | some value => g.take o value
  | .none => .ok { g with pending := some (o, .none) }

/-- Reads an option after two dashes. -/
def long (g : Given) (known : List Setting) (cs : List Char) : Except Stop Given :=
  let (name, joined) := match Text.splitOnce '=' cs with
    | some (name, value) => (name, some (String.ofList value))
    | .none => (cs, .none)
  match known.find? (fun o => o.long == String.ofList name), joined with
  | .none, _ => .error .usage
  | some o, joined =>
    if o.takesValue then g.valued o joined
    else if joined.isSome then .error .usage
    else g.flag o

/-- Reads letters after a dash. What follows the letter of an option with a value is the value. -/
def letters (g : Given) (known : List Setting) : List Char → Except Stop Given
  | [] => .ok g
  | c :: r =>
    match known.find? fun o => o.letter? == some c with
    | .none => .error .usage
    | some o =>
      if o.takesValue then
        match r with
        | [] => g.valued o .none
        | '=' :: r => g.valued o (some (String.ofList r))
        | r => g.valued o (some (String.ofList r))
      else do letters (← g.flag o) known r

/-- Reads an operand of a command. -/
def operand (g : Given) (v : Verb) (s : String) : Except Stop Given := do
  let g ← g.settle
  if g.operands.length < v.operands ∧ v.admits s then .ok { g with operands := g.operands ++ [s] }
  else .error .usage

/-- Ends one side: the notes cannot be in two places. -/
def finish (g : Given) : Except Stop Given := do
  let g ← g.settle
  if g.has .dir ∧ g.has .notes then .error .usage else .ok g

end Given

/-- What an argument looks like. -/
inductive Shape where
  | long (cs : List Char)
  | letters (cs : List Char)
  /-- Two dashes. -/
  | bar
  | plain

def shapeOf (s : String) : Shape :=
  match s.toList with
  | ['-', '-'] => .bar
  | '-' :: '-' :: cs => .long cs
  | ['-'] => .plain
  | '-' :: cs => .letters cs
  | _ => .plain

/-- Reads what comes after two dashes. -/
def readOperands (v : Verb) (g : Given) : List String → Except Stop Given
  | [] => .ok g
  | s :: r => do readOperands v (← g.operand v s) r

/-- Reads what comes after the name of a command. -/
def readAfter (v : Verb) (g : Given) : List String → Except Stop Given
  | [] => .ok g
  | s :: r =>
    match g.pending, shapeOf s with
    | some (o, none), .plain => readAfter v { g with pending := some (o, some s) } r
    | some (_, none), _ => .error .usage
    | _, .bar => readOperands v g r
    | _, .long cs => do readAfter v (← g.long v.settings cs) r
    | _, .letters cs => do readAfter v (← g.letters v.settings cs) r
    | _, .plain => do readAfter v (← g.operand v s) r

/-- The command that is called for, if it has all its operands. -/
def commandOf? (v : Verb) (g : Given) : Option Command :=
  let format := ((g.value? .format).bind Format.ofName?).getD .human
  match v, g.operands with
  | .index, [] => some (.index (g.has .full))
  | .query, [s] => some (.query s format)
  | .search, [s] => some (.search s format)
  | .tags, [] => some (.tags (g.has .counts) format)
  | .show, [s] => some (.show s format)
  | .backlinks, [s] => some (.backlinks s format)
  | .linking, [s] => some (.linking s format)
  | .matching, [key, value] => some (.matching key value format)
  | .check, [] => some (.check (g.has .quiet))
  | .completions, [s] => (Shell.ofName? s).map .completions
  | _, _ => none

/-- Reads the rest of the arguments from the name of a command on. -/
def readCommand (v : Verb) (before : Given) (args : List String) : Except Stop Invocation := do
  let after ← (← readAfter v .none args).finish
  match commandOf? v after with
  | none => .error .usage
  | some command =>
    let before ← before.finish
    .ok {
      dir := (after.value? .dir).or (before.value? .dir)
      notes := (after.value? .notes).or (before.value? .notes)
      verbose := before.has .verbose || after.has .verbose
      command }

/-- Help about the whole, or about one command. -/
def readHelp : List String → Stop
  | [] => .help
  | [s] => if s = "help" ∨ (Verb.ofName? s).isSome then .help else .usage
  | _ => .usage

/-- The options that may come before the name of a command. -/
def leading : List Setting := .version :: Setting.general

/-- Reads arguments up to the name of a command, and the rest from there. -/
def readBefore (g : Given) : List String → Except Stop Invocation
  | [] => .error .usage
  | s :: r =>
    match g.pending, shapeOf s with
    | some (o, none), .plain => readBefore { g with pending := some (o, some s) } r
    | some (_, none), _ => .error .usage
    | _, .bar => .error .usage
    | _, .long cs => do readBefore (← g.long leading cs) r
    | _, .letters cs => do readBefore (← g.letters leading cs) r
    | _, .plain =>
      if s = "help" then .error (readHelp r)
      else
        match Verb.ofName? s with
        | some v => readCommand v g r
        | none => .error .usage

def parse (args : List String) : Except Stop Invocation := readBefore .none args

end NoteIndex.CommandLine
