/-
  TerraformCloud/CommandLine/Invocation.lean
  ==========================================
  **What a command line asks for.**

  A command line is read word by word, first for the program and then for one command
  of it.  The value of an option and a positional argument are held until the next
  word is understood: a word that cannot be understood at all is reported before
  anything that is wrong with what is held.
-/
import TerraformCloud.CommandLine.Entity
import TerraformCloud.Number.DecimalText

namespace TerraformCloud.CommandLine

/-! ### Results -/

/-- Why a command line is not carried out. -/
inductive UsageStop where
  /-- Help was asked for. -/
  | help
  /-- The version was asked for. -/
  | version
  /-- Nothing at all was given, and help is shown. -/
  | nothingGiven
  | missingCommand
  | unknownCommand
  | missingArgument
  /-- A value that is none of those to choose from, or no value where one is needed. -/
  | invalidValue
  | malformedNumber
  | unknownArgument
  | repeatedOption
  /-- A value where none is taken. -/
  | uselessValue
deriving DecidableEq, Repr

namespace UsageStop

/-- Only what was asked for is no failure. -/
def exitCode : UsageStop → Nat
  | help | version => 0
  | _ => 2

def message : UsageStop → String
  | help | version => ""
  | nothingGiven | missingCommand => "a command is required"
  | unknownCommand => "unknown command"
  | missingArgument => "a required argument was not given"
  | invalidValue => "invalid value"
  | malformedNumber => "not a page number"
  | unknownArgument => "unexpected argument"
  | repeatedOption => "an option cannot be used multiple times"
  | uselessValue => "unexpected value for an option"

end UsageStop

inductive Command where
  | get (entity : Entity) (id : String)
  | list (entity : Entity) (workspace : Option String) (page pageSize : Option UInt32) (all : Bool)
deriving DecidableEq, Repr

/-- What a command line asks for. -/
structure Invocation where
  /-- Whether results are written as JSON. -/
  json : Bool
  organization : Option String
  command : Command
deriving DecidableEq, Repr

/-! ### Words -/

/-- The forms of a word. -/
inductive Word where
  /-- Every word behind this one is plain. -/
  | escape
  | long (name : String) (value : Option String)
  | short (letters : List Char)
  | plain
deriving DecidableEq, Repr

/-- The form of a word, by its dashes; a single dash is a plain word. -/
def Word.ofText (text : String) : Word :=
  match text.toList with
  | ['-', '-'] => .escape
  | '-' :: '-' :: rest =>
    let name := String.ofList (rest.takeWhile (· ≠ '='))
    match rest.dropWhile (· ≠ '=') with
    | [] => .long name none
    | _ :: value => .long name (some (String.ofList value))
  | '-' :: c :: rest => .short (c :: rest)
  | _ => .plain

/-- What is being read: the program's own words, or those of a command. -/
inductive Scope where
  | program | get | list
deriving DecidableEq, Repr

/-- Options that take a value. -/
inductive Setting where
  | org | workspace | page | pageSize
deriving DecidableEq, Repr

/-- Options that take none. -/
inductive Switch where
  | json | all
deriving DecidableEq, Repr

/-- What an option is for. -/
inductive Flag where
  | setting (s : Setting)
  | switch (s : Switch)
  | help
  | version
deriving DecidableEq, Repr

/-- Arguments without a name. -/
inductive Positional where
  | entity | id
deriving DecidableEq, Repr

namespace Scope

def ofName? : String → Option Scope
  | "get" => some .get
  | "list" => some .list
  | _ => none

def flag? : Scope → String → Option Flag
  | _, "json" => some (.switch .json)
  | _, "org" => some (.setting .org)
  | _, "help" => some .help
  | program, "version" => some .version
  | list, "workspace" => some (.setting .workspace)
  | list, "page" => some (.setting .page)
  | list, "page-size" => some (.setting .pageSize)
  | list, "all" => some (.switch .all)
  | _, _ => none

def positionals : Scope → List Positional
  | program => []
  | get => [.entity, .id]
  | list => [.entity]

end Scope

/-! ### What was given -/

/-- What was given and understood. -/
structure Given where
  json : Bool := false
  all : Bool := false
  org : Option String := none
  workspace : Option String := none
  page : Option UInt32 := none
  pageSize : Option UInt32 := none
  entity : Option Entity := none
  id : Option String := none
deriving DecidableEq, Repr

/-- A natural number below `2 ^ 32`, perhaps with a sign. -/
def pageNumber? (text : String) : Option UInt32 :=
  let (negative, digits) :=
    match text.toList with
    | '-' :: rest => (true, rest)
    | '+' :: rest => (false, rest)
    | cs => (false, cs)
  match natOfDigits? digits with
  | none => none
  | some n => if n < UInt32.size ∧ (negative → n = 0) then some (UInt32.ofNat n) else none

/-- What is held until the next word is understood. -/
inductive Held where
  | setting (s : Setting) (value : Option String)
  | positional (p : Positional) (text : String)
deriving DecidableEq, Repr

namespace Given

/-- Refuses what was given before. -/
def once {α : Type} (old : Option α) : Except UsageStop Unit :=
  if old.isSome then .error .repeatedOption else .ok ()

def number (text : String) : Except UsageStop UInt32 :=
  match pageNumber? text with
  | some n => .ok n
  | none => .error .malformedNumber

/-- Takes in an option with its value. -/
def set (g : Given) (s : Setting) (value : String) : Except UsageStop Given :=
  match s with
  | .org => do once g.org; return { g with org := some value }
  | .workspace => do once g.workspace; return { g with workspace := some value }
  | .page => do once g.page; return { g with page := some (← number value) }
  | .pageSize => do once g.pageSize; return { g with pageSize := some (← number value) }

/-- Takes in what was held. -/
def settle (g : Given) : Option Held → Except UsageStop Given
  | none => .ok g
  | some (.setting _ none) => .error .invalidValue
  | some (.setting s (some value)) => g.set s value
  | some (.positional .entity text) =>
    match Entity.ofName? text with
    | some e => .ok { g with entity := some e }
    | none => .error .invalidValue
  | some (.positional .id text) => .ok { g with id := some text }

/-- Turns a switch on. -/
def turnOn (g : Given) : Switch → Except UsageStop Given
  | .json => if g.json then .error .repeatedOption else .ok { g with json := true }
  | .all => if g.all then .error .repeatedOption else .ok { g with all := true }

end Given

/-! ### Reading -/

/-- What was read so far. -/
structure Reading where
  given : Given
  held : Option Held
  /-- Arguments without a name that may still come. -/
  awaited : List Positional
  /-- Whether every word is plain from here on. -/
  literal : Bool
deriving DecidableEq, Repr

namespace Reading

def start (scope : Scope) : Reading := ⟨{}, none, scope.positionals, false⟩

def settle (r : Reading) : Except UsageStop Reading :=
  (r.given.settle r.held).map fun given => { r with given, held := none }

/-- Whether an option still needs its value. -/
def needsValue (r : Reading) : Bool :=
  match r.held with
  | some (.setting _ none) => true
  | _ => false

/-- Reads an option.  A value is taken by an option that takes one, and by no other. -/
def option (r : Reading) (f : Flag) (value : Option String) : Except UsageStop Reading :=
  match f, value with
  | .setting s, some v => do
    let r ← r.settle
    return { r with given := ← r.given.set s v }
  | .setting s, none => do return { ← r.settle with held := some (.setting s none) }
  | _, some _ => .error .uselessValue
  | .switch s, none => do
    let r ← r.settle
    return { r with given := ← r.given.turnOn s }
  | .help, none => do let _ ← r.settle; .error .help
  | .version, none => do let _ ← r.settle; .error .version

/-- Reads a group of short options; none of them only sets something. -/
def shortOptions (scope : Scope) (r : Reading) : List Char → Except UsageStop Reading
  | [] => .ok r
  | 'h' :: _ => r.option .help none
  | 'V' :: _ => if scope = .program then r.option .version none else .error .unknownArgument
  | _ :: _ => .error .unknownArgument

/-- Reads a word that is an argument without a name. -/
def argument (scope : Scope) (r : Reading) (text : String) : Except UsageStop Reading :=
  match r.awaited with
  | p :: rest => do return { ← r.settle with held := some (.positional p text), awaited := rest }
  | [] =>
    if scope = .program ∧ ¬ (r.literal ∧ (text = "help" ∨ (Scope.ofName? text).isSome)) then
      .error .unknownCommand
    else .error .unknownArgument

def word (scope : Scope) (r : Reading) (text : String) : Except UsageStop Reading :=
  if r.literal then r.argument scope text
  else
    match Word.ofText text with
    | .escape => .ok { r with literal := true }
    | .long name value =>
      match scope.flag? name with
      | some f => r.option f value
      | none => .error .unknownArgument
    | .short letters => r.shortOptions scope letters
    | .plain =>
      match r.held with
      | some (.setting s none) => .ok { r with held := some (.setting s (some text)) }
      | _ => r.argument scope text

end Reading

/-- The command that was given. -/
def commandOf (scope : Scope) (g : Given) : Except UsageStop Command :=
  match scope, g.entity, g.id with
  | .get, some e, some id => .ok (.get e id)
  | .list, some e, _ => .ok (.list e g.workspace g.page g.pageSize g.all)
  | _, _, _ => .error .missingArgument

/-- Reads the words behind the name of a command. -/
def readCommand (scope : Scope) (words : List String) : Except UsageStop (Given × Command) := do
  let r ← words.foldlM (Reading.word scope) (.start scope)
  let r ← r.settle
  return (r.given, ← commandOf scope r.given)

/-- What the words behind `help` ask for: nothing, or one command. -/
def readHelp : List String → UsageStop
  | [] => .help
  | [name] => if name = "help" ∨ (Scope.ofName? name).isSome then .help else .unknownCommand
  | _ => .unknownCommand

/-- Reads the words of the program from where `r` stands.  What a command says about
    itself wins over what was said before it, and that over the environment. -/
def readProgram (environment : Option String) (r : Reading) : List String → Except UsageStop Invocation
  | [] => do
    let g := (← r.settle).given
    .error (if !g.json && (g.org <|> environment).isNone then .nothingGiven else .missingCommand)
  | text :: rest =>
    if r.literal || r.needsValue then do readProgram environment (← r.word .program text) rest
    else if text = "help" then .error (readHelp rest)
    else
      match Scope.ofName? text with
      | some scope => do
        let (inner, command) ← readCommand scope rest
        let outer := (← r.settle).given
        return { json := outer.json || inner.json,
                 organization := inner.org <|> outer.org <|> environment, command }
      | none => do readProgram environment (← r.word .program text) rest

/-- What the words of a command line ask for; the organization may also come from the
    environment. -/
def Invocation.ofWords (environment : Option String) (words : List String) :
    Except UsageStop Invocation :=
  readProgram environment (.start .program) words

end TerraformCloud.CommandLine
