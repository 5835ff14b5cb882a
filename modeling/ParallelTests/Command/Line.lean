import ParallelTests.Command.Arguments
import ParallelTests.Text.Integer

/-!
How the program reads its command line. This is its outermost layer: what is proved of a run holds
for whatever reader of arguments it is given.
-/

namespace ParallelTests.Command

inductive UsageError
  | unknownOption (name : String)
  | missingValue (name : String)
  | surplusValue (name : String)
  | badWorkers (value : String)
  | badName (value : String)
  | noDirectory
  | surplusArgument (argument : String)
  deriving DecidableEq, Repr

inductive Switch
  | help
  | recursive (on : Bool)
  | emitNonTestFiles (on : Bool)
  deriving DecidableEq, Repr

namespace Switch

def ofName? : String → Option Switch
  | "--help" => some help
  | "--recursive" => some (recursive true)
  | "--no-recursive" => some (recursive false)
  | "--emit-non-test-files" => some (emitNonTestFiles true)
  | "--no-emit-non-test-files" => some (emitNonTestFiles false)
  | _ => none

end Switch

inductive Setter
  | config
  | workers
  | report
  | logLevel
  deriving DecidableEq, Repr

namespace Setter

def ofName? : String → Option Setter
  | "--config" => some config
  | "--workers" => some workers
  | "--report" => some report
  | "--log-level" => some logLevel
  | _ => none

end Setter

inductive Item
  | word (text : String)
  | switch (s : Switch)
  | set (s : Setter) (value : String)
  deriving DecidableEq, Repr

namespace Item

def isOption (arg : String) : Bool := Text.startsWith arg "-" && arg ≠ "-"

def split (arg : String) : String × Option String :=
  let cs := arg.toList
  let name := String.ofList (cs.takeWhile (· ≠ '='))
  match cs.dropWhile (· ≠ '=') with
  | [] => (name, none)
  | _ :: value => (name, some (String.ofList value))

def ofArgs : List String → Except UsageError (List Item)
  | [] => .ok []
  | arg :: rest =>
    if arg = "--" then .ok (rest.map word)
    else if isOption arg then
      let (name, value?) := split arg
      match Switch.ofName? name, Setter.ofName? name, value?, rest with
      | some s, _, none, rest => (ofArgs rest).map (switch s :: ·)
      | some _, _, some _, _ => .error (.surplusValue name)
      | none, some s, some value, rest => (ofArgs rest).map (set s value :: ·)
      | none, some s, none, value :: rest => (ofArgs rest).map (set s value :: ·)
      | none, some _, none, [] => .error (.missingValue name)
      | none, none, _, _ => .error (.unknownOption name)
    else (ofArgs rest).map (word arg :: ·)
termination_by args => args.length

def words (items : List Item) : List String :=
  items.filterMap fun
    | word text => some text
    | _ => none

def value? (s : Setter) (items : List Item) : Option String :=
  (items.filterMap fun
    | set s' value => if s' = s then some value else none
    | _ => none).getLast?

def recursive? (items : List Item) : Option Bool :=
  (items.filterMap fun
    | switch (.recursive on) => some on
    | _ => none).getLast?

def emitNonTestFiles? (items : List Item) : Option Bool :=
  (items.filterMap fun
    | switch (.emitNonTestFiles on) => some on
    | _ => none).getLast?

end Item

inductive Request
  | help
  | run (arguments : Arguments)
  deriving DecidableEq, Repr

def workersOf (value : String) : Except UsageError Int :=
  match Text.integer? value with
  | some n => if n < 1 then .error (.badWorkers value) else .ok n
  | none => .error (.badWorkers value)

def pathOf (value : String) : Except UsageError Path :=
  let path := Path.ofString value
  if path.hasZero then .error (.badName value) else .ok path

namespace Setter

def check (value : String) : Setter → Except UsageError Unit
  | config | report => (pathOf value).map fun _ => ()
  | workers => (workersOf value).map fun _ => ()
  | logLevel => .ok ()

end Setter

namespace Item

def setters (items : List Item) : List Setter :=
  (items.filterMap fun
    | set s _ => some s
    | _ => none).eraseDups

def check (items : List Item) : Except UsageError Unit :=
  (setters items).forM fun s =>
    match value? s items with
    | some value => s.check value
    | none => .ok ()

end Item

namespace Request

def ofItems (items : List Item) : Except UsageError Request :=
  if .switch .help ∈ items then .ok help
  else do
    Item.check items
    match Item.words items with
    | [] => .error .noDirectory
    | dir :: surplus =>
      let arguments : Arguments := {
        moduleDir := ← pathOf dir
        config := ← (Item.value? .config items).mapM pathOf
        recursive := Item.recursive? items
        workers := ← (Item.value? .workers items).mapM workersOf
        emitNonTestFiles := Item.emitNonTestFiles? items
        report := ← (Item.value? .report items).mapM pathOf
        logLevel := Item.value? .logLevel items }
      match surplus with
      | [] => return run arguments
      | word :: _ => .error (.surplusArgument word)

def ofArgs (args : List String) : Except UsageError Request := do
  ofItems (← Item.ofArgs args)

end Request

end ParallelTests.Command
