import Catalog.Config
import Catalog.View

/-!
The arguments of the command line. They are read from left to right. The first one that is not
accepted ends the reading, and so does one that asks for the version or for help.
-/
namespace Catalog.CommandLine

/-- The options that take a value. -/
inductive Setting where
  | view | config | defaultSchema | idBase | enumBinding | source
  deriving DecidableEq, Repr

namespace Setting

def name : Setting → String
  | view => "view"
  | config => "config"
  | defaultSchema => "default-schema"
  | idBase => "id-base"
  | enumBinding => "enum-binding"
  | source => "source"

def all : List Setting :=
  [view, config, defaultSchema, idBase, enumBinding, source]

def ofName? (name : String) : Option Setting :=
  all.find? (·.name = name)

end Setting

/-- The arguments so far. -/
structure Draft where
  input : Option String := none
  view : Option View := none
  compact : Bool := false
  config : Option String := none
  defaultSchema : Option String := none
  idBase : Option UInt32 := none
  enumBinding : Option EnumBinding := none
  source : Option String := none
  deriving DecidableEq, Repr

structure Arguments where
  /-- The path of the bundle; a hyphen stands for the standard input. -/
  input : String
  view : View
  compact : Bool
  config : Option String
  defaultSchema : Option String
  idBase : Option UInt32
  enumBinding : Option EnumBinding
  /-- The path of the source that reports show. -/
  source : Option String
  deriving DecidableEq, Repr

/-- What the arguments ask for. -/
inductive Request where
  | run (a : Arguments)
  | version
  | help
  | misuse
  deriving DecidableEq, Repr

/-- One argument by its form. -/
inductive Word where
  | operand
  | endOfOptions
  | short (first : Char)
  | long (name : String) (value : Option String)
  deriving DecidableEq, Repr

def Word.ofString (arg : String) : Word :=
  match arg.toList with
  | ['-', '-'] => endOfOptions
  | '-' :: '-' :: cs =>
    match cs.span (· ≠ '=') with
    | (name, _ :: value) => long (String.ofList name) (some (String.ofList value))
    | (name, []) => long (String.ofList name) none
  | '-' :: c :: _ => short c
  | _ => operand

def path? (text : String) : Option String :=
  if text.isEmpty then none else some text

/-- Decimal digits after an optional sign. -/
def idBase? (text : String) : Option UInt32 :=
  let (negative, digits) := match text.toList with
    | '-' :: ds => (true, ds)
    | '+' :: ds => (false, ds)
    | ds => (false, ds)
  if digits.isEmpty || !digits.all Char.isDigit then none
  else
    let n := digits.foldl (fun n d => 10 * n + (d.toNat - '0'.toNat)) 0
    if n < UInt32.size ∧ (negative = false ∨ n = 0) then some (UInt32.ofNat n) else none

def enumBinding? : String → Option EnumBinding
  | "on-insert" => some .onInsert
  | "after-construction" => some .afterConstruction
  | _ => none

/-- Fills a slot that is still empty. -/
def fill {α : Type} (slot value : Option α) : Option (Option α) :=
  if slot.isSome then none else value.map some

namespace Draft

def set (d : Draft) (value : String) : Setting → Option Draft
  | .view => do pure { d with view := ← fill d.view (View.ofName? value) }
  | .config => do pure { d with config := ← fill d.config (path? value) }
  | .defaultSchema => do pure { d with defaultSchema := ← fill d.defaultSchema (some value) }
  | .idBase => do pure { d with idBase := ← fill d.idBase (idBase? value) }
  | .enumBinding => do pure { d with enumBinding := ← fill d.enumBinding (enumBinding? value) }
  | .source => do pure { d with source := ← fill d.source (path? value) }

def setCompact (d : Draft) : Option Draft :=
  if d.compact then none else some { d with compact := true }

def setInput (d : Draft) (value : String) : Option Draft := do
  pure { d with input := ← fill d.input (path? value) }

def finish (d : Draft) : Request :=
  match d.input with
  | none => .misuse
  | some input => .run { d with input, view := d.view.getD .tree }

/-- Reads arguments none of which is an option. -/
def readOperands (d : Draft) : List String → Request
  | [] => d.finish
  | arg :: rest =>
    match d.setInput arg with
    | some d => d.readOperands rest
    | none => .misuse

def read (d : Draft) : List String → Request
  | [] => d.finish
  | arg :: rest =>
    match Word.ofString arg with
    | .operand =>
      match d.setInput arg with
      | some d => d.read rest
      | none => .misuse
    | .endOfOptions => d.readOperands rest
    | .short 'V' | .long "version" none => .version
    | .short 'h' | .long "help" none => .help
    | .short _ => .misuse
    | .long "compact" none =>
      match d.setCompact with
      | some d => d.read rest
      | none => .misuse
    | .long name attached =>
      match Setting.ofName? name, attached, rest with
      | some s, some value, rest =>
        match d.set value s with
        | some d => d.read rest
        | none => .misuse
      | some s, none, value :: rest =>
        if Word.ofString value = .operand then
          match d.set value s with
          | some d => d.read rest
          | none => .misuse
        else .misuse
      | _, _, _ => .misuse
  termination_by args => args.length

end Draft

def Request.ofArguments (args : List String) : Request :=
  Draft.read {} args

end Catalog.CommandLine
