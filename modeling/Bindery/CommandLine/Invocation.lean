import Bindery.CommandLine.Arguments

/-!
# Invocations

What a command line asks for: one of four commands, and settings that may stand on either side of
the command's name. Where both sides give one, the later counts.
-/

namespace Bindery.CommandLine

inductive ReportFormat where
  | text
  | json
  deriving DecidableEq

def ReportFormat.name : ReportFormat → String
  | text => "text"
  | json => "json"

def ReportFormat.ofName? (name : String) : Option ReportFormat :=
  [text, json].find? (·.name = name)

inductive Command where
  | build (kind : String) (ids : List String) (output : Option String) (force : Bool)
  /-- Say whether an artifact is as its sources are. -/
  | check (kind : String) (ids : List String) (output : Option String)
  | inspect (artifact : String) (format : ReportFormat)
  | checksum (files : List String)
  deriving DecidableEq

structure Invocation where
  quiet : Bool
  verbose : Bool
  /-- A configuration's file or directory. -/
  configuration : Option String
  command : Command
  deriving DecidableEq

/-! ### Switches -/

def flag (name : String) (letter : Option Char) : Switch := ⟨name, letter, .flag⟩

def quiet : Switch := flag "quiet" (some 'q')

def verbose : Switch := flag "verbose" (some 'v')

def force : Switch := flag "force" none

def configuration : Switch := ⟨"config", none, .valued fun _ => true⟩

def output : Switch := ⟨"output", some 'o', .valued fun _ => true⟩

def format : Switch := ⟨"format", some 'f', .valued fun name => (ReportFormat.ofName? name).isSome⟩

def help : Switch := ⟨"help", some 'h', .information⟩

def version : Switch := ⟨"version", some 'V', .information⟩

/-- The switches that are known on either side of a command's name. -/
def everywhere : List Switch := [quiet, verbose, configuration, help]

/-! ### Commands -/

inductive Verb where
  | build
  | check
  | inspect
  | checksum
  deriving DecidableEq

namespace Verb

def name : Verb → String
  | build => "build"
  | check => "check"
  | inspect => "inspect"
  | checksum => "checksum"

def all : List Verb := [build, check, inspect, checksum]

/-- What the words behind the name mean. -/
def grammar : Verb → Grammar
  | build => ⟨output :: force :: everywhere, [], none⟩
  | check => ⟨output :: everywhere, [], none⟩
  | inspect => ⟨format :: everywhere, [], some 1⟩
  | checksum => ⟨everywhere, [], none⟩

/-- The command that arguments complete. -/
def command? (v : Verb) (a : Arguments) : Option Command :=
  match v, a.operands with
  | build, kind :: id :: ids => some (.build kind (id :: ids) (a.value? output) (a.has force))
  | check, kind :: id :: ids => some (.check kind (id :: ids) (a.value? output))
  | inspect, [artifact] =>
    some (.inspect artifact (((a.value? format).bind ReportFormat.ofName?).getD .text))
  | checksum, file :: files => some (.checksum (file :: files))
  | _, _ => none

end Verb

def helpWord : String := "help"

/-- What the words up to a command's name mean. -/
def grammar : Grammar := ⟨version :: everywhere, helpWord :: Verb.all.map Verb.name, some 0⟩

/-- What asking for help on words comes to: there is help on a command, and on help. -/
def helpOn : List String → Usage
  | [] => .information
  | [topic] => if topic ∈ grammar.commands then .information else .mistake
  | _ => .mistake

def Verb.read (v : Verb) (words : List String) : Except Usage (Arguments × Command) := do
  let (a, _) ← Arguments.none.read v.grammar words
  let a ← a.settle
  match v.command? a with
  | some command => pure (a, command)
  | none => .error .mistake

/-- What a command line asks for. -/
def Invocation.ofWords (words : List String) : Except Usage Invocation := do
  let (outer, rest) ← Arguments.none.read grammar words
  match rest with
  | none => .error .mistake
  | some (word, rest) =>
    match Verb.all.find? (·.name = word) with
    | none => .error (helpOn rest)
    | some verb =>
      let (inner, command) ← verb.read rest
      let outer ← outer.settle
      pure
        { quiet := outer.has CommandLine.quiet || inner.has CommandLine.quiet
          verbose := outer.has CommandLine.verbose || inner.has CommandLine.verbose
          configuration :=
            (inner.value? CommandLine.configuration).or (outer.value? CommandLine.configuration)
          command }

end Bindery.CommandLine
