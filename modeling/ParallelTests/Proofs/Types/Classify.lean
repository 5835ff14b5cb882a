import ParallelTests.Proofs.Edit.Effect
import ParallelTests.Proofs.Types.Table

/-!
Which declarations are tests, by what the type of their only parameter means. The parameter has to
be written as a pointer: an alias for a pointer is none.
-/

namespace ParallelTests

/-- A function that is named as tests are and has one parameter, with names for it and its type. -/
structure OnlyParam (c : Config) (decl : Node) (names : List Node) (e : Node) : Prop where
  form : ∃ name type signature body field, decl.shape = .funcDecl name type signature none body ∧
    Text.startsWith name.name c.testPrefix = true ∧ type.params = [field] ∧
    field.shape = .field names e
  short : names.length ≤ 1

namespace Types

variable {package : String} {files : List Node} {table : TypeTable} {file e x : Node} {i : Nat}
  {a : Address}

lemma typeOf?_pointer_iff {type field : Node} {names : List Node} {k : Nat} {t : ResolvedType}
    (ht : resolveAll package files = .ok table) (hfile : files[i]? = some file)
    (hf : Function file a type) (hk : type.params[k]? = some field)
    (hs : field.shape = .field names e) (he : e.shape = .star x) :
    table.typeOf? ⟨i, a ++ [0, k, names.length]⟩ = some (.pointer t) ↔
      table.typeOf? ⟨i, a ++ [0, k, names.length, 0]⟩ = some t := by
  have hsound := (sound_of_resolveAll ht).1
  have hat : At files ⟨i, a ++ [0, k, names.length]⟩ file e := ⟨hfile, hf.at?_param hk hs⟩
  have hchild : (Place.mk i (a ++ [0, k, names.length])).child 0 =
      ⟨i, a ++ [0, k, names.length, 0]⟩ := by simp [Place.child]
  have hx : At files ⟨i, a ++ [0, k, names.length, 0]⟩ file x :=
    hchild ▸ hat.child (by rw [Node.children, he]; rfl)
  have hmeans {t : ResolvedType}
      (h : table.typeOf? ⟨i, a ++ [0, k, names.length, 0]⟩ = some t) :
      Means package files file x t := by
    obtain ⟨file', x', hx', hm⟩ := hsound.means _ t h
    obtain ⟨rfl, rfl⟩ := hx.unique hx'
    exact hm
  rw [typeOf?_param_iff ht hfile hf hk hs]
  constructor
  · intro hm
    have hsome := hsound.pointee _ file e x hat he
      (by rw [(typeOf?_param_iff ht hfile hf hk hs).2 hm]; rfl)
    rw [hchild] at hsome
    obtain ⟨t', ht'⟩ := Option.isSome_iff_exists.1 hsome
    have := hm.unique (.pointer he (hmeans ht'))
    rw [ht', ResolvedType.pointer.inj this]
  · exact fun h => .pointer he (hmeans h)

end Types

namespace Classification

variable {c : Config} {table : TypeTable} {place : Place} {decl : Node}

lemma pointee_eq_inr_iff {field : Node} {type : ResolvedType} :
    pointee table place field = .inr type ↔ ∃ names e x p n, field.shape = .field names e ∧
      e.shape = .star x ∧ type = .named p n ∧
      table.typeOf? ⟨place.file, place.address ++ [0, 0, names.length, 0]⟩ = some (.named p n) := by
  unfold pointee
  constructor
  · intro h
    split at h
    · next names e hs =>
      split at h
      · next x he =>
        split at h
        · next p n ht => exact ⟨names, e, x, p, n, hs, he, (Sum.inr.inj h).symm, ht⟩
        · cases h
      · cases h
    · cases h
  · rintro ⟨names, e, x, p, n, hs, he, rfl, ht⟩
    simp only [hs, he, ht]

lemma pointee_ne_inl_isTest {field : Node} : pointee table place field ≠ .inl .isTest := by
  unfold pointee
  repeat' split
  all_goals rintro ⟨⟩

lemma of_funcDecl {name type : Node} {signature : String} {recv : Option String}
    {body : Option Node} (h : decl.shape = .funcDecl name type signature recv body) :
    of c table place decl = .isTest ↔ recv = none ∧ Text.startsWith name.name c.testPrefix = true ∧
      type.paramCount = 1 ∧ ∃ field rest found, type.params = field :: rest ∧
        pointee table place field = .inr found ∧ found.text = c.handleType := by
  rw [of, h]
  dsimp only
  cases recv with
  | some recv => simp
  | none =>
    by_cases hstarts : Text.startsWith name.name c.testPrefix = true
    · by_cases hcount : type.paramCount = 1
      · rcases type.params with _ | ⟨field, rest⟩
        · simp [hstarts, hcount]
        · cases hp : pointee table place field with
          | inl reason =>
            have hreason : reason ≠ .isTest := fun h => pointee_ne_inl_isTest (h ▸ hp)
            simp [hstarts, hcount, hp, hreason]
          | inr found => simp [hstarts, hcount, hp]
      · simp [hstarts, hcount]
    · simp [hstarts]

lemma of_eq_isTest : of c table place decl = .isTest ↔ ∃ names e x p n, OnlyParam c decl names e ∧
    e.shape = .star x ∧
    table.typeOf? ⟨place.file, place.address ++ [0, 0, names.length, 0]⟩ = some (.named p n) ∧
    (ResolvedType.named p n).text = c.handleType := by
  constructor
  · intro h
    cases hdecl : decl.shape with
    | funcDecl name type signature recv body =>
      obtain ⟨rfl, hstarts, hcount, field, rest, found, hparams, hfound, htext⟩ :=
        (of_funcDecl hdecl).1 h
      obtain ⟨field', hparams', hshort⟩ := Node.paramCount_eq_one_iff.1 hcount
      obtain ⟨rfl, rfl⟩ := List.cons.inj (hparams.symm.trans hparams')
      obtain ⟨names, e, x, p, n, hs, he, rfl, ht⟩ := pointee_eq_inr_iff.1 hfound
      rw [Node.names, hs] at hshort
      exact ⟨names, e, x, p, n, ⟨⟨name, type, signature, body, _, hdecl, hstarts, hparams, hs⟩, hshort⟩,
        he, ht, htext⟩
    | _ => simp [of, hdecl] at h
  · rintro ⟨names, e, x, p, n, ⟨⟨name, type, signature, body, field, hdecl, hstarts, hparams, hs⟩, hshort⟩,
      he, ht, htext⟩
    have hcount : type.paramCount = 1 :=
      Node.paramCount_eq_one_iff.2 ⟨field, hparams, by rwa [Node.names, hs]⟩
    exact (of_funcDecl hdecl).2 ⟨rfl, hstarts, hcount, field, [], _, hparams,
      pointee_eq_inr_iff.2 ⟨names, e, x, p, n, hs, he, rfl, ht⟩, htext⟩

variable {package : String} {files : List Node} {file : Node} {i d : Nat}

/-- A declaration is a test just if its only parameter is written as a pointer and has the type of a
pointer to the handle type, whatever the name is by which that type is called. -/
theorem of_eq_isTest_iff (c : Config) (ht : Types.resolveAll package files = .ok table)
    (hfile : files[i]? = some file) (hk : file.kind = .file) (hd : file.children[d]? = some decl) :
    (of c table ⟨i, [d]⟩ decl = .isTest ↔ ∃ names e x p n, OnlyParam c decl names e ∧
      e.shape = .star x ∧
      table.typeOf? ⟨i, [d, 0, 0, names.length]⟩ = some (.pointer (.named p n)) ∧
      (ResolvedType.named p n).text = c.handleType) ∧
    (of c table ⟨i, [d]⟩ decl = .isTest ↔ ∃ names e x p n, OnlyParam c decl names e ∧
      e.shape = .star x ∧ Types.Means package files file e (.pointer (.named p n)) ∧
      (ResolvedType.named p n).text = c.handleType) := by
  have hparam {names : List Node} {e : Node} (h : OnlyParam c decl names e) :
      ∃ type field, Types.Function file [d] type ∧ type.params[0]? = some field ∧
        field.shape = .field names e := by
    obtain ⟨⟨name, type, signature, body, field, hdecl, -, hparams, hs⟩, -⟩ := h
    exact ⟨type, field, .decl hk hd hdecl, by rw [hparams]; rfl, hs⟩
  have hiff : of c table ⟨i, [d]⟩ decl = .isTest ↔ ∃ names e x p n, OnlyParam c decl names e ∧
      e.shape = .star x ∧
      table.typeOf? ⟨i, [d, 0, 0, names.length]⟩ = some (.pointer (.named p n)) ∧
      (ResolvedType.named p n).text = c.handleType := by
    refine of_eq_isTest.trans ?_
    refine exists_congr fun names => exists_congr fun e => exists_congr fun x => exists_congr fun p =>
      exists_congr fun n => and_congr_right fun h => and_congr_right fun he => and_congr_left' ?_
    obtain ⟨type, field, hf, hfield, hs⟩ := hparam h
    exact (Types.typeOf?_pointer_iff ht hfile hf hfield hs he).symm
  refine ⟨hiff, hiff.trans ?_⟩
  refine exists_congr fun names => exists_congr fun e => exists_congr fun x => exists_congr fun p =>
    exists_congr fun n => and_congr_right fun h => and_congr_right fun _ => and_congr_left' ?_
  obtain ⟨type, field, hf, hfield, hs⟩ := hparam h
  exact Types.typeOf?_param_iff ht hfile hf hfield hs

def paramSource (alias_ param : String) : Source :=
  .ofString "a_test.go" ("package p\nimport \"testing\"\ntype H = " ++ alias_ ++ "\nfunc TestA(t " ++
    param ++ ") \x7b\n\x7d\n")

lemma kind_of_parse {src : Source} {file : Node} (h : src.parse = .ok file) : file.kind = .file :=
  (Source.lies_of_parse (Source.parse_eq_ok_iff.1 h)).2.2

set_option maxRecDepth 100000 in
theorem of_eq_isTest_iff_paramSource :
    ∃ file table decl, (paramSource "testing.T" "*H").parse = .ok file ∧ file.kind = .file ∧
      Types.resolveAll "p" [file] = .ok table ∧ file.children[2]? = some decl ∧
      of {} table ⟨0, [2]⟩ decl = .isTest ∧ ∃ names e x p n, OnlyParam {} decl names e ∧
        e.shape = .star x ∧ Types.Means "p" [file] file e (.pointer (.named p n)) ∧
        (ResolvedType.named p n).text = "testing.T" := by
  have h : ∃ file table decl, (paramSource "testing.T" "*H").parse = .ok file ∧
      Types.resolveAll "p" [file] = .ok table ∧ file.children[2]? = some decl ∧
      of {} table ⟨0, [2]⟩ decl = .isTest := Source.exists_of_decl? (by decide +kernel)
  obtain ⟨file, table, decl, hfile, htable, hdecl, htest⟩ := h
  exact ⟨file, table, decl, hfile, kind_of_parse hfile, htable, hdecl, htest,
    (of_eq_isTest_iff {} htable rfl (kind_of_parse hfile) hdecl).2.1 htest⟩

set_option maxRecDepth 100000 in
/-- An alias for the pointer itself is not, though the table has a pointer for it. -/
theorem of_ne_isTest_paramSource :
    ∃ file table decl, (paramSource "*testing.T" "H").parse = .ok file ∧
      Types.resolveAll "p" [file] = .ok table ∧ file.children[2]? = some decl ∧
      (∃ names e, OnlyParam {} decl names e ∧
        table.typeOf? ⟨0, [2, 0, 0, names.length]⟩ = some (.pointer (.named "testing" "T"))) ∧
      (ResolvedType.named "testing" "T").text = Config.handleType {} ∧
      of {} table ⟨0, [2]⟩ decl = .notPointer := by
  have h : ∃ file table decl, (paramSource "*testing.T" "H").parse = .ok file ∧
      Types.resolveAll "p" [file] = .ok table ∧ file.children[2]? = some decl ∧
      table.typeOf? ⟨0, [2, 0, 0, 1]⟩ = some (.pointer (.named "testing" "T")) ∧
      of {} table ⟨0, [2]⟩ decl = .notPointer ∧ decl.funcName = "TestA" ∧
      decl.funcType.params.map (fun f => (f.kind, f.names.length)) = [(.field, 1)] :=
    Source.exists_of_decl? (by decide +kernel)
  obtain ⟨file, table, decl, hfile, htable, hdecl, htype, hof, hname, hparams⟩ := h
  refine ⟨file, table, decl, hfile, htable, hdecl, ?_, rfl, hof⟩
  simp only [List.map_eq_singleton_iff, Prod.mk.injEq] at hparams
  obtain ⟨field, hparams, hkind, hlen⟩ := hparams
  cases hs : decl.shape with
  | funcDecl name type signature recv body =>
    rw [Node.funcName, hs] at hname
    rw [Node.funcType, hs] at hparams
    cases recv with
    | some recv => simp [of, hs] at hof
    | none =>
      cases hf : field.shape with
      | field names e =>
        rw [Node.names, hf] at hlen
        refine ⟨names, e, ⟨⟨name, type, signature, body, field, hs, ?_, hparams, hf⟩, hlen.le⟩, ?_⟩
        · rw [show name.name = "TestA" from hname]
          decide
        · rwa [show names.length = 1 from hlen]
      | _ => simp [Node.kind, hf, Shape.kind] at hkind
  | _ => simp [of, hs] at hof

end Classification

end ParallelTests
