import ParallelTests.Toml.Scalar

/-!
Documents: keys, arrays, inline tables and headers. A table is opened once, and what an inline value
made can no longer be added to.
-/

namespace ParallelTests.Toml

def isBareKey (c : Char) : Bool := c.isAlphanum || c = '-' || c = '_'

def keyPart : List Char → Read String
  | [] => none
  | c :: cs =>
    if isBareKey c then
      some (String.ofList (c :: cs.takeWhile isBareKey), cs.dropWhile isBareKey)
    else if c = '\'' then (literalString cs).map fun (text, rest) => (String.ofList text, rest)
    else if c = '"' then (basicString false cs).map fun (text, rest) => (String.ofList text, rest)
    else none

def key (cs : List Char) : Read Key :=
  match keyPart cs with
  | none => none
  | some (part, rest) =>
    match skipBlank rest with
    | '.' :: more =>
      let next := skipBlank more
      if next.length < cs.length then (key next).map fun (parts, rest) => (part :: parts, rest)
      else none
    | rest => some ([part], rest)
termination_by cs.length

def skipFiller (cs : List Char) : Option (List Char) :=
  match cs.dropWhile isBlankOrNewline with
  | '#' :: rest =>
    match skipComment ('#' :: rest) with
    | none => none
    | some after => if after.length < cs.length then skipFiller after else none
  | rest => some rest
termination_by cs.length

inductive Seal
  | opened
  | frozen
  deriving DecidableEq, Repr

structure Seals where
  now : List (Key × Seal) := []
  later : List (Key × Seal) := []

namespace Seals

def isOpened (s : Seals) (key : Key) : Bool := s.now.contains (key, .opened)

def isFrozen (s : Seals) (key : Key) : Bool :=
  s.now.any fun e => e.2 = .frozen && e.1.isPrefixOf key

def add (s : Seals) (key : Key) (mark : Seal) : Seals := { s with now := (key, mark) :: s.now }

def addLater (s : Seals) (key : Key) : Seals := { s with later := (key, .opened) :: s.later }

def settle (s : Seals) : Seals := ⟨s.later ++ s.now, []⟩

def lift (s : Seals) (key : Key) : Seals :=
  { s with now := s.now.filter fun e => !key.isPrefixOf e.1 }

end Seals

def isNest : Value → Bool
  | .array _ | .table _ => true
  | _ => false

mutual

def value (cs : List Char) : Parsed Value :=
  match cs with
  | '"' :: _ | '\'' :: _ =>
    .ofRead ((string cs).map fun (text, rest) => (.string (String.ofList text), rest))
  | '[' :: rest =>
    match skipFiller rest with
    | some (']' :: after) => .ok (.array [], after)
    | some next =>
      if next.length ≤ rest.length then (items next).map fun (vs, rest) => (.array vs, rest)
      else .error .malformed
    | none => .error .malformed
  | '\x7b' :: rest =>
    match skipBlank rest with
    | '\x7d' :: after => .ok (.table [], after)
    | next =>
      if next.length ≤ rest.length then
        (pairs next [] {}).map fun (t, rest) => (.table t, rest)
      else .error .malformed
  | _ =>
    if ['t', 'r', 'u', 'e'].isPrefixOf cs then .ok (.boolean true, cs.drop 4)
    else if ['f', 'a', 'l', 's', 'e'].isPrefixOf cs then .ok (.boolean false, cs.drop 5)
    else scalar cs
termination_by (cs.length, 0)

def items (cs : List Char) : Parsed (List Value) :=
  match value cs with
  | .error e => .error e
  | .ok (v, rest) =>
    match skipFiller rest with
    | some (']' :: after) => .ok ([v], after)
    | some (',' :: more) =>
      match skipFiller more with
      | some (']' :: after) => .ok ([v], after)
      | some next =>
        if next.length < cs.length then (items next).map fun (vs, rest) => (v :: vs, rest)
        else .error .malformed
      | none => .error .malformed
    | _ => .error .malformed
termination_by (cs.length, 1)

def pairs (cs : List Char) (t : Table) (seals : Seals) : Parsed Table :=
  match key cs with
  | some (k, '=' :: rest) =>
    let next := skipBlank rest
    if next.length < cs.length then
      match value next with
      | .error e => .error e
      | .ok (v, rest) =>
        if seals.isFrozen k then .error .malformed
        else
          match Table.modify false (Table.insert (k.getLastD "") v) k.dropLast t with
          | none => .error .malformed
          | some t =>
            match skipBlank rest with
            | '\x7d' :: after => .ok (t, after)
            | ',' :: more =>
              let seals := if isNest v then seals.add k .frozen else seals
              let next := skipBlank more
              if next.length < cs.length then pairs next t seals else .error .malformed
            | _ => .error .malformed
    else .error .malformed
  | _ => .error .malformed
termination_by (cs.length, 0)

end

structure State where
  root : Table := []
  seals : Seals := {}
  header : Key := []

namespace State

def openTable (s : State) (k : Key) : Option State :=
  if s.seals.isOpened k || s.seals.isFrozen k then none
  else (Table.modify true some k s.root).map fun root => ⟨root, s.seals.add k .opened, k⟩

def openListItem (s : State) (k : Key) : Option State :=
  if s.seals.isFrozen k then none
  else
    let seals := (s.seals.lift k).add k .opened
    (Table.modify true (Table.push (k.getLastD "")) k.dropLast s.root).map fun root =>
      ⟨root, seals, k⟩

def between (s : State) (k : Key) : List Key :=
  (List.range (k.length - 1)).map fun i => s.header ++ k.take (i + 1)

def assign (s : State) (k : Key) (v : Value) : Option State :=
  let between := s.between k
  let parent := s.header ++ k.dropLast
  if between.any s.seals.isOpened || s.seals.isFrozen parent then none
  else
    let seals := between.foldl Seals.addLater s.seals
    let seals := if isNest v then seals.add (s.header ++ k) .frozen else seals
    (Table.modify true (Table.insert (k.getLastD "") v) parent s.root).map fun root =>
      { s with root, seals }

end State

def statement (s : State) (cs : List Char) : Parsed State :=
  match cs with
  | '[' :: '[' :: rest =>
    match key (skipBlank rest) with
    | some (k, ']' :: ']' :: after) =>
      .ofRead (({ s with seals := s.seals.settle } : State).openListItem k |>.map (·, skipBlank after))
    | _ => .error .malformed
  | '[' :: rest =>
    match key (skipBlank rest) with
    | some (k, ']' :: after) =>
      .ofRead (({ s with seals := s.seals.settle } : State).openTable k |>.map (·, skipBlank after))
    | _ => .error .malformed
  | '#' :: _ => .ok (s, cs)
  | _ =>
    match key cs with
    | some (k, '=' :: rest) =>
      match value (skipBlank rest) with
      | .ok (v, after) => .ofRead ((s.assign k v).map (·, skipBlank after))
      | .error e => .error e
    | _ => .error .malformed

def statements (s : State) (cs : List Char) : Except Fault Table :=
  match skipBlank cs with
  | [] => .ok s.root
  | '\n' :: rest => if rest.length < cs.length then statements s rest else .error .malformed
  | next =>
    match statement s next with
    | .error e => .error e
    | .ok (s, after) =>
      match skipComment after with
      | some [] => .ok s.root
      | some ('\n' :: rest) =>
        if rest.length < cs.length then statements s rest else .error .malformed
      | _ => .error .malformed
termination_by cs.length

def parse (text : String) : Except Fault Table := statements {} text.toList

end ParallelTests.Toml
