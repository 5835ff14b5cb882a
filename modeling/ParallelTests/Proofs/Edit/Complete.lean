import ParallelTests.Proofs.Edit.Steps
import ParallelTests.Proofs.Print.Printable
import ParallelTests.Proofs.Print.RoundTrip
import ParallelTests.Run.Worker

namespace ParallelTests

/-- No label is on a statement that has one already. -/
def Node.Unstacked (n : Node) : Prop :=
  ∀ a label inside, (n.at? a).map Node.shape = some (.labeled label (some inside)) →
    inside.kind ≠ .labeled

lemma Node.Unstacked.child {n c : Node} (h : n.Unstacked) (hc : c ∈ n.children) : c.Unstacked := by
  obtain ⟨i, hi⟩ := List.mem_iff_getElem?.1 hc
  intro a label inside hat
  apply h (i :: a) label inside
  rwa [Node.at?_cons, hi, Option.bind_some]

def Node.isStacked (n : Node) : Bool :=
  match n.shape with
  | .labeled _ (some inside) => inside.kind = .labeled
  | _ => false

lemma Node.unstacked_iff_preorder (n : Node) :
    (∀ p ∈ n.preorder [], p.2.isStacked = false) ↔ n.Unstacked := by
  constructor
  · intro h a label inside hat
    obtain ⟨m, hm, hs⟩ := Option.map_eq_some_iff.1 hat
    simpa [isStacked, hs] using h (a, m) (mem_preorder.2 ⟨a, rfl, hm⟩)
  · rintro h ⟨a, m⟩ hp
    obtain ⟨rel, -, hm⟩ := mem_preorder.1 hp
    unfold isStacked
    split
    · next label inside hs =>
      simpa using h rel label inside (by rw [hm, Option.map_some, hs])
    · rfl

instance (n : Node) : Decidable n.Unstacked :=
  decidable_of_iff _ n.unstacked_iff_preorder

def Part.CanPrint : Part → Prop
  | node n => n.Unstacked → Printable false n
  | pieces ns ps => (∀ m, .inline m ∉ ps) ∧
      ∀ i c, .child i ∈ ps → ns[i]? = some c → c.Unstacked → Printable false c
  | stmts _ _ ns => ∀ n ∈ ns, n.Unstacked → Printable true n
  | line n => n.Unstacked → Printable true n

lemma Labels.printable {src : List Char} {extra : Nat → List Lexeme} {name : Node} {a b : Nat}
    (h : Labels src extra name a b) : Printable false name := by
  cases h with
  | mk hk => exact .woven hk (by simp) (by simp)

theorem Laid.canPrint {src : List Char} {extra : Nat → List Lexeme} {part : Part} {a b : Nat}
    (h : Laid src extra part a b) : part.CanPrint := by
  induction h with
  | woven hk _ ih =>
    intro hu
    exact .woven hk ih.1 fun i c hi hc => ih.2 i c hi hc (hu.child (List.mem_of_getElem? hc))
  | block _ _ _ _ _ _ _ _ _ _ ih =>
    intro hu
    refine .block fun n hn => ?_
    rcases List.mem_append.1 hn with h | h
    · obtain ⟨i, -, rfl⟩ := List.mem_map.1 h
      exact .insert_line i
    · exact ih n h (hu.child hn)
  | done => exact ⟨by simp, by simp⟩
  | text _ _ _ _ ih => exact ⟨by simpa using ih.1, by simpa using ih.2⟩
  | child hi _ _ ihn ih =>
    refine ⟨by simpa using ih.1, fun j c hj hc hu => ?_⟩
    rcases List.mem_cons.1 hj with h | h
    · obtain rfl := Piece.child.inj h
      obtain rfl := Option.some.inj (hi.symm.trans hc)
      exact ihn hu
    · exact ih.2 j c h hc hu
  | ended => simp [Part.CanPrint]
  | comment _ _ _ _ ih => exact List.forall_mem_cons.2 ⟨fun _ => .comment, ih⟩
  | stmt _ _ _ _ _ _ _ _ _ ihn ih => exact List.forall_mem_cons.2 ⟨ihn, ih⟩
  | plain hk _ _ ih => exact fun hu => .plain hk (ih hu)
  | @clause _ _ _ _ ps _ _ _ _ _ _ _ _ _ hk _ _ ht _ _ ihh ihb =>
    intro hu
    refine .clause (.woven hk ?_ ?_) fun n hn => ihb n hn (hu.child (List.mem_cons_of_mem _ hn))
    · rcases ht with rfl | ⟨text, -, rfl⟩ <;> simpa using ihh.1
    · intro i c hi hc
      have hi' : .child i ∈ ps := by
        rcases ht with rfl | ⟨text, -, rfl⟩ <;> simpa using hi
      exact ihh.2 i c hi' hc ((hu.child (List.mem_cons_self ..)).child (List.mem_of_getElem? hc))
  | label _ hn => exact fun _ => .label hn.printable
  | labeled _ hn _ _ _ hk ih =>
    intro hu
    rcases hk with hk | hk
    · exact .labeled hn.printable ((ih (hu.child (by simp [Node.children, Node.shape,
        Shape.children]))).of_isPlain hk)
    · exact absurd hk (hu [] _ _ rfl)

lemma Plan.of_ok {named : String → Prop} {decl : Node} (h : Shaped named decl) (c : Config)
    (handle : Option String) : ∃ plan, Plan.of c decl handle = .ok plan := by
  unfold Plan.of
  split
  · exact ⟨_, rfl⟩
  · exact ⟨_, rfl⟩
  · next body name hb =>
    obtain ⟨r, hr⟩ : ∃ r, body.walk (Node.searchStep name c.runMethod) [1] {} = .ok r :=
      Node.walk_ok (h.at? (Node.at?_of_body? hb)) [1] _
    rw [Node.findSubtest, hr]
    dsimp only [Except.map]
    split
    · next he => cases he
    · exact ⟨_, rfl⟩
    · split <;> exact ⟨_, rfl⟩

namespace Repair

lemma tableLoop_ok {named : String → Prop} {stmts : List Node} (h : ∀ s ∈ stmts, Shaped named s)
    (name : String) (subtest : Address) (index : Nat) :
    ∃ found, tableLoop name subtest index stmts = .ok found := by
  induction stmts generalizing index with
  | nil => exact ⟨none, rfl⟩
  | cons stmt rest ih =>
    have hrest := ih (fun s hs => h s (by simp [hs])) (index + 1)
    rw [tableLoop]
    split
    · exact hrest
    · next body hbody =>
      have hshaped := (h stmt (by simp)).at? (Node.at?_of_tableLoopBody? hbody)
      obtain ⟨held, hheld⟩ := (Node.known_of_shaped hshaped).holds_ok [1, index, stmt.children.length - 1] subtest
      simp only [hheld, bind, Except.bind]
      cases held with
      | true => exact ⟨_, rfl⟩
      | false => exact hrest

lemma of_ok {named : String → Prop} {decl : Node} (h : Shaped named decl) (c : Config)
    (subtest : Address) : ∃ r, of c decl subtest = .ok r := by
  have hstmts (s : Node) (hs : s ∈ (decl.body?.map Node.stmts).getD []) : Shaped named s := by
    cases hb : decl.body? with
    | none => simp [hb] at hs
    | some body =>
      rw [hb] at hs
      obtain ⟨i, hi⟩ := List.mem_iff_getElem?.1 hs
      exact h.at? (Node.at?_stmt hb hi)
  obtain ⟨found, hf⟩ := tableLoop_ok hstmts c.tableVar subtest 0
  unfold of
  dsimp only
  split
  · rw [hf]
    rcases found with - | ⟨a, loop⟩
    · exact ⟨_, rfl⟩
    · dsimp only [bind, Except.bind]
      split <;> exact ⟨_, rfl⟩
  · exact ⟨_, rfl⟩

end Repair

namespace Edit

variable {c : Config} {types : TypeTable} {place : Place} {path : String} {log : Log.Logger}
  {decl : Node}

lemma shaped_apply (h : Shaped (fun _ => True) decl) (plan : Plan) :
    Shaped (fun _ => True) (plan.apply c decl) := by
  unfold Plan.apply
  split
  · exact h
  · exact h.modifyAt (Node.alike_prepend _)
      (fun m hm => hm.prepend (.parallelCall trivial trivial) rfl) _

lemma Did.ok {state : Node} {result : Except Breach Status} (h : Shaped (fun _ => True) decl)
    (hd : Did c types place decl state result) : ∃ status, result = .ok status := by
  cases hd with
  | lost _ hp =>
    obtain ⟨plan, hok⟩ := Plan.of_ok h c decl.handleName
    rw [hok] at hp
    cases hp
  | astray _ _ hr =>
    obtain ⟨r, hok⟩ := Repair.of_ok (shaped_apply h _) c _
    rw [hok] at hr
    cases hr
  | _ => exact ⟨_, rfl⟩

lemma printable_apply (h : Printable false decl) (plan : Plan) :
    Printable false (plan.apply c decl) := by
  unfold Plan.apply
  split
  · exact h
  · next a handle _ => exact h.modifyAt (.call handle c.parallelMethod) a

lemma Did.printable {state : Node} {result : Except Breach Status} (h : Printable false decl)
    (hd : Did c types place decl state result) : Printable false state := by
  cases hd with
  | ignored | aborted | lost => exact h
  | simple | subtest | astray => exact printable_apply h _
  | rebound => exact (printable_apply h _).modifyAt (.rebind c.caseVar) _

end Edit

namespace Worker

variable (c : Config) (types : TypeTable) (index : Nat) (path : String) (log : Log.Logger)

lemma decls_ok {ds : List Node} (h : ∀ d ∈ ds, Shaped (fun _ => True) d) (i : Nat) :
    ∃ outcomes, (decls c types index path log i ds).result = .ok outcomes := by
  induction ds generalizing i with
  | nil => exact ⟨[], rfl⟩
  | cons d ds ih =>
    obtain ⟨outcomes, hrest⟩ := ih (fun d hd => h d (by simp [hd])) (i + 1)
    rw [decls]
    split
    · have hdid := Edit.did_function c types ⟨index, [i]⟩ path
        (log.withContext [("func", .text d.funcName)]) d
      obtain ⟨status, hs⟩ := hdid.ok (h d (by simp))
      obtain ⟨o, ho, -⟩ := Except.map_eq_ok_iff.1 hs
      simp only [ho, hrest, Except.map]
      exact ⟨_, rfl⟩
    · exact ⟨outcomes, hrest⟩

lemma decls_printable (i : Nat) (ds : List Node) :
    List.Forall₂ (fun d d' => Printable false d → Printable false d') ds
      (decls c types index path log i ds).state := by
  induction ds generalizing i with
  | nil => exact .nil
  | cons d ds ih =>
    rw [decls]
    split
    · have hdid := Edit.did_function c types ⟨index, [i]⟩ path
        (log.withContext [("func", .text d.funcName)]) d
      dsimp only
      split
      · exact .cons (fun h => hdid.printable h) (List.forall₂_same.2 fun _ _ h => h)
      · exact .cons (fun h => hdid.printable h) (ih (i + 1))
    · exact .cons (fun h => h) (ih (i + 1))

end Worker

lemma Printable.withDecls {file : Node} {ds : List Node} (hk : file.kind = .file)
    (h : Printable false file)
    (hds : List.Forall₂ (fun d d' => Printable false d → Printable false d') file.children ds) :
    Printable false (file.withDecls ds) := by
  obtain ⟨span, layout, pieces, shape⟩ := file
  cases shape with
  | file path package imports decls =>
    cases h with
    | woven hb hi hc =>
      refine .woven hb hi fun i d' hi hd' => ?_
      obtain ⟨hlt, rfl⟩ := List.getElem?_eq_some_iff.1 hd'
      have hlt' : i < decls.length := hds.length_eq ▸ hlt
      exact hds.get hlt' hlt (hc i _ hi (List.getElem?_eq_getElem hlt'))
    | insert o h => cases o <;> cases h
  | _ => cases hk

/-- A file that was parsed is walked and worked on without a breach, whatever the settings, and what
the work leaves can be printed, unless a label stands right before another one. -/
theorem completes_of_parse {src : Source} {file : Node} (hp : src.parse = .ok file) (c : Config)
    (types : TypeTable) (index : Nat) (log : Log.Logger) :
    (∀ {σ : Type} (visit : Address → Node → σ → Verdict × σ) (a : Address) (st : σ),
      ∃ r, file.walk visit a st = .ok r) ∧
    (∃ outcomes, (Worker.file c types index log file).result = .ok outcomes) ∧
    (file.Unstacked → ∃ text, (Worker.file c types index log file).state.render = .ok text) := by
  obtain ⟨hlies, hformed, hkind⟩ := Source.lies_of_parse (Source.parse_eq_ok_iff.1 hp)
  have hshaped : Shaped (fun _ => True) file := hformed.mono fun _ _ => trivial
  refine ⟨fun visit a st => Node.walk_ok hshaped a st, ?_, fun hu => ?_⟩
  · exact Worker.decls_ok c types index file.filePath log (fun d hd => hshaped.child hd) 0
  · exact Printer.render_ok ((hlies.canPrint hu).withDecls hkind
      (Worker.decls_printable c types index file.filePath log 0 file.children))

def labelSource (labels : String) : Source :=
  .ofString "a.go" ("package p\nfunc f() \x7b\n" ++ labels ++ "\tx()\n\tgoto A\n\tgoto B\n\x7d\n")

set_option maxRecDepth 100000 in
theorem completes_labelSource :
    ∃ file, (labelSource "A:\n\ty()\nB:\n").parse = .ok file ∧
      ∃ text, (Worker.file {} {} 0 {} file).state.render = .ok text := by
  have h : ∃ file, (labelSource "A:\n\ty()\nB:\n").parse = .ok file ∧ file.Unstacked :=
    Source.exists_of_parse (by decide +kernel)
  obtain ⟨file, hp, hu⟩ := h
  exact ⟨file, hp, (completes_of_parse hp {} {} 0 {}).2.2 hu⟩

set_option maxRecDepth 100000 in
theorem not_render_labelSource :
    ∃ file, (labelSource "A:\nB:\n").parse = .ok file ∧
      (Worker.file {} {} 0 {} file).state.render.toOption = none :=
  Source.exists_of_parse (by decide +kernel)

end ParallelTests
