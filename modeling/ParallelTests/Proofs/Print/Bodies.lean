import ParallelTests.Proofs.Parse.Row
import ParallelTests.Proofs.Print.Adds

namespace ParallelTests

open Scan Printer

/-- The outermost blocks of a tree, in order, but for those in signatures and types, which are part
of the text around them. -/
def Node.bodies (n : Node) : List Node :=
  if n.kind = .block then [n]
  else if n.kind.isSilent = true then []
  else n.children.attach.flatMap fun ⟨c, h⟩ =>
    have := weight_lt_of_mem_children h
    bodies c
termination_by n.weight

inductive Frame
  | block
  | node (kind : Kind) (pieces : Option (List Piece)) (below : List Frame)

def Node.frame (n : Node) : Frame :=
  if n.kind = .block then .block
  else .node n.kind n.pieces (n.children.attach.map fun ⟨c, h⟩ =>
    have := weight_lt_of_mem_children h
    frame c)
termination_by n.weight

namespace Node

variable {n m : Node}

lemma bodies_of_block (h : n.kind = .block) : n.bodies = [n] := by
  rw [bodies, if_pos h]

lemma bodies_of_isSilent (h : n.kind.isSilent = true) : n.bodies = [] := by
  have hk : n.kind ≠ .block := by
    intro hk
    simp [hk, Kind.isSilent] at h
  rw [bodies, if_neg hk, if_pos h]

lemma bodies_of_isWoven (h : n.kind.isWoven = true) : n.bodies = n.children.flatMap bodies := by
  have hs : n.kind.isSilent ≠ true := by
    intro hs
    cases hk : n.kind <;> simp [hk, Kind.isSilent, Kind.isWoven] at h hs
  rw [bodies, if_neg (Kind.ne_block_of_isWoven h), if_neg hs]
  conv => rhs; rw [← List.attach_map_subtype_val n.children, List.flatMap_map]

def literalBody? (n : Node) : Option Node :=
  match n.shape with
  | .funcLit _ _ body => some body
  | _ => none

/-- The bodies in a declaration: that of a function, or those of the literals in it. -/
def declBodies (n : Node) : List Node :=
  match n.shape with
  | .funcDecl _ _ _ _ body => body.toList
  | .genDecl literals => literals.filterMap literalBody?
  | _ => []

lemma bodies_of_funcLit (h : Formed n) (hk : n.kind = .funcLit) : n.bodies = n.literalBody?.toList := by
  obtain ⟨span, layout, pieces, shape⟩ := n
  cases shape with
  | funcLit signature type body =>
    obtain ⟨htype, hbody⟩ : type.kind = .funcType ∧ body.kind = .block := h.proper
    rw [bodies_of_isWoven rfl]
    change [type, body].flatMap bodies = [body]
    simp [bodies_of_block hbody, bodies_of_isSilent (n := type) (by rw [htype]; rfl)]
  | _ => cases hk

lemma bodies_of_isDecl (h : Formed n) (hk : n.kind.isDecl = true) : n.bodies = n.declBodies := by
  obtain ⟨span, layout, pieces, shape⟩ := n
  cases shape with
  | funcDecl name type signature recv body =>
    obtain ⟨htype, hbody⟩ : type.kind = .funcType ∧ ∀ b ∈ body, b.kind = .block := h.proper
    rw [bodies_of_isWoven rfl]
    change (type :: body.toList).flatMap bodies = body.toList
    rw [List.flatMap_cons, bodies_of_isSilent (by rw [htype]; rfl), List.nil_append]
    cases body with
    | none => rfl
    | some b => simp [bodies_of_block (hbody b rfl)]
  | genDecl literals =>
    have hlit : ∀ l ∈ literals, l.kind = .funcLit := h.proper
    have hbodies (l : Node) (hl : l ∈ literals) : l.bodies = l.literalBody?.toList :=
      bodies_of_funcLit (h.child hl) (hlit l hl)
    rw [bodies_of_isWoven rfl]
    change literals.flatMap bodies = literals.filterMap literalBody?
    rw [List.filterMap_eq_flatMap_toList, List.flatMap_def, List.flatMap_def,
      List.map_congr_left hbodies]
  | typeDecl specs =>
    have hspec : ∀ n ∈ specs, n.kind = .typeSpec := h.proper
    rw [bodies_of_isWoven rfl]
    exact List.flatMap_eq_nil_iff.2 fun n hn => bodies_of_isSilent (by rw [hspec n hn]; rfl)
  | importDecl specs => rw [bodies_of_isWoven rfl]; rfl
  | _ => cases hk

theorem bodies_of_file (h : Formed n) (hk : n.kind = .file) :
    n.bodies = n.children.flatMap declBodies := by
  have hdecl : ∀ d ∈ n.children, d.kind.isDecl = true := by
    obtain ⟨span, layout, pieces, shape⟩ := n
    cases shape with
    | file => exact h.proper
    | _ => cases hk
  rw [bodies_of_isWoven (by rw [hk]; rfl), List.flatMap_def, List.flatMap_def,
    List.map_congr_left fun d hd => bodies_of_isDecl (h.child hd) (hdecl d hd)]

lemma frame_of_block (h : n.kind = .block) : n.frame = .block := by
  rw [frame, if_pos h]

lemma frame_of_ne (h : n.kind ≠ .block) :
    n.frame = .node n.kind n.pieces (n.children.map frame) := by
  rw [frame, if_neg h]
  conv => rhs; rw [← List.attach_map_subtype_val n.children, List.map_map]
  rfl

lemma kind_of_frame (h : m.frame = n.frame) : m.kind = n.kind := by
  by_cases hm : m.kind = .block <;> by_cases hn : n.kind = .block
  · rw [hm, hn]
  · rw [frame_of_block hm, frame_of_ne hn] at h
    cases h
  · rw [frame_of_ne hm, frame_of_block hn] at h
    cases h
  · rw [frame_of_ne hm, frame_of_ne hn] at h
    exact (Frame.node.inj h).1

lemma pieces_of_frame (h : m.frame = n.frame) (hn : n.kind ≠ .block) :
    m.pieces = n.pieces ∧ m.children.map frame = n.children.map frame := by
  have hm : m.kind ≠ .block := by rwa [kind_of_frame h]
  rw [frame_of_ne hm, frame_of_ne hn] at h
  exact (Frame.node.inj h).2

end Node

/-- What is between two offsets of a source, with a text in braces for each of some blocks in it. -/
inductive Spliced (src : List Char) (b : Nat) : Nat → List Node → List Char → Prop
  | rest {a : Nat} (h : a ≤ b) : Spliced src b a [] (cut src a b)
  | body {a : Nat} {n : Node} {ns : List Node} {span : Span} {r w : List Char}
      (hs : n.span = some span) (ha : a ≤ span.start) (hle : span.start ≤ span.stop) (hr : Braced r)
      (h : Spliced src b span.stop ns w) : Spliced src b a (n :: ns) (cut src a span.start ++ r ++ w)

namespace Spliced

variable {src : List Char} {a m b : Nat} {ns ms : List Node} {w v : List Char}

lemma behind (ha : a ≤ m) (h : Spliced src b m ns w) : Spliced src b a ns (cut src a m ++ w) := by
  cases h with
  | rest h =>
    rw [cut_append ha h]
    exact .rest (by omega)
  | body hs hm hle hr h =>
    rw [← List.append_assoc, ← List.append_assoc, cut_append ha hm]
    exact .body hs (by omega) hle hr h

lemma append (h : Spliced src m a ns w) (h' : Spliced src b m ms v) :
    Spliced src b a (ns ++ ms) (w ++ v) := by
  induction h with
  | rest h => exact h'.behind h
  | body hs ha hle hr _ ih =>
    rw [List.append_assoc]
    exact .body hs ha hle hr ih

end Spliced

structure Keeps (src : List Char) (bodies : List Node) (a b : Nat) (print : Page → Result Page) :
    Prop where
  adds : ∀ page page', print page = .ok page' →
    ∃ w, Wrote page page' w ∧ Spliced src b a bodies w
  prints : bodies = [] → ∀ page, ∃ page', print page = .ok page'

namespace Keeps

variable {src : List Char} {bodies bodies' : List Node} {a m b : Nat} {print print' : Page → Result Page}

lemma nothing : Keeps src [] a a .ok := by
  refine ⟨fun page page' h => ?_, fun _ page => ⟨page, rfl⟩⟩
  obtain rfl := Except.ok.inj h
  have hrest : Spliced src a a [] (cut src a a) := .rest (Nat.le_refl a)
  exact ⟨[], wrote_refl, by rwa [cut_self] at hrest⟩

lemma write (h : a ≤ b) :
    Keeps src [] a b fun page => .ok (page.write (String.ofList (cut src a b))) := by
  refine ⟨fun page page' hp => ?_, fun _ page => ⟨_, rfl⟩⟩
  obtain rfl := Except.ok.inj hp
  exact ⟨_, wrote_write page _, by simpa using Spliced.rest h⟩

lemma bind (h : Keeps src bodies a m print) (h' : Keeps src bodies' m b print') :
    Keeps src (bodies ++ bodies') a b fun page => print page >>= print' := by
  refine ⟨fun page page'' hp => ?_, fun hnil page => ?_⟩
  · obtain ⟨page', hp, hp'⟩ := Except.bind_eq_ok_iff.1 hp
    obtain ⟨w, hw, hs⟩ := h.adds page page' hp
    obtain ⟨v, hv, hs'⟩ := h'.adds page' page'' hp'
    exact ⟨w ++ v, hw.trans hv, hs.append hs'⟩
  · obtain ⟨rfl, rfl⟩ := List.append_eq_nil_iff.1 hnil
    obtain ⟨page', hp⟩ := h.prints rfl page
    obtain ⟨page'', hp'⟩ := h'.prints rfl page'
    exact ⟨page'', Except.bind_eq_ok_iff.2 ⟨page', hp, hp'⟩⟩

lemma block {n n' : Node} {span : Span} (hs : n.span = some span) (hle : span.start ≤ span.stop)
    (hk : n'.kind = .block) : Keeps src [n] span.start span.stop (emit none · n') := by
  refine ⟨fun page page' h => ?_, by simp⟩
  obtain ⟨w, hw, hr⟩ := braced_of_emit hk h
  have hrest : Spliced src span.stop span.stop [] (cut src span.stop span.stop) :=
    .rest (Nat.le_refl _)
  have hbody := hrest.body hs (Nat.le_refl _) hle hr
  rw [cut_self, cut_self, List.nil_append, List.append_nil] at hbody
  exact ⟨w, hw, hbody⟩

end Keeps

lemma Shows.flatMap_bodies {ns : List Node} {ps : List Piece} (h : Shows ns ps) :
    (ps.filterMap Piece.child?).flatMap (fun i => (ns[i]?.map Node.bodies).getD []) =
      ns.flatMap Node.bodies := by
  obtain ⟨-, k, hk, hs⟩ := h
  -- the numbers in the text are those from `k` on, and no node before has a body
  have hsilent : (ns.take k).flatMap Node.bodies = [] :=
    List.flatMap_eq_nil_iff.2 fun n hn => Node.bodies_of_isSilent (hs n hn)
  have hshown : (List.range' k (ns.length - k)).map (fun i => (ns[i]?.map Node.bodies).getD []) =
      (ns.drop k).map Node.bodies := by
    apply List.ext_getElem (by simp)
    intro i hi hi'
    simp at hi'
    simp [show k + i < ns.length by omega]
  calc (ps.filterMap Piece.child?).flatMap (fun i => (ns[i]?.map Node.bodies).getD [])
      = (ns.drop k).flatMap Node.bodies := by
        rw [hk, List.flatMap_def, hshown, List.flatMap_def]
    _ = (ns.take k ++ ns.drop k).flatMap Node.bodies := by
        rw [List.flatMap_append, hsilent, List.nil_append]
    _ = ns.flatMap Node.bodies := by rw [List.take_append_drop]

def Part.Keeping (src : List Char) (a b : Nat) : Part → Prop
  | node n => Formed n → ∀ n', n'.frame = n.frame → Keeps src n.bodies a b (emit none · n')
  | pieces ns ps => (∀ m, .inline m ∉ ps) → (∀ c ∈ ns, Formed c) →
    ∀ ns', ns'.map Node.frame = ns.map Node.frame →
      Keeps src ((ps.filterMap Piece.child?).flatMap fun i => (ns[i]?.map Node.bodies).getD []) a b
        (ps.foldlM (emitPiece none ns') ·)
  | _ => True

theorem Laid.keeping {src : List Char} {part : Part} {a b : Nat} (h : Lies src part a b) :
    part.Keeping src a b := by
  induction h with
  | @woven span layout ps shape a b hk h ih =>
    intro hf n' hframe
    -- the other tree has the same text, and the same places for its children
    obtain ⟨hwoven, hshows⟩ := hf.backed
    obtain ⟨span', layout', pieces', shape'⟩ := n'
    obtain ⟨hpieces, hbelow⟩ := Node.pieces_of_frame hframe hk
    have hkind := Node.kind_of_frame hframe
    obtain rfl : pieces' = some ps := hpieces
    have hprint (page : Page) : emit none page (.mk span' layout' (some ps) shape') =
        ps.foldlM (emitPiece none shape'.children) page :=
      emit_woven (by rwa [show shape'.kind = shape.kind from hkind])
    rw [Node.bodies_of_isWoven hwoven, ← hshows.flatMap_bodies]
    simp only [hprint]
    exact ih hshows.1 (fun c hc => hf.child hc) shape'.children hbelow
  | @block span layout pieces ins own oneLine lead b hstop ho hc _ _ _ _ _ _ h ih =>
    intro hf n' hframe
    have hk : n'.kind = .block := by rw [Node.kind_of_frame hframe]; rfl
    have := h.le
    rw [Node.bodies_of_block rfl, ← hstop]
    exact .block rfl (by omega) hk
  | done ha => exact fun _ _ _ _ => .nothing
  | @text children ps a m b ms _ hr _ _ ih =>
    intro hi hf ns' hns
    have hrest := ih (fun m hm => hi m (List.mem_cons_of_mem _ hm)) hf ns' hns
    exact (Keeps.write hr.le).bind hrest
  | @child children ps i n a m b hget _ _ ihn ih =>
    intro hi hf ns' hns
    have hrest := ih (fun m hm => hi m (List.mem_cons_of_mem _ hm)) hf ns' hns
    obtain ⟨n', hget', hframe⟩ : ∃ n', ns'[i]? = some n' ∧ n'.frame = n.frame := by
      have := congrArg (·[i]?) hns
      simpa [hget] using this
    have hchild := ihn (hf n (List.mem_of_getElem? hget)) n' hframe
    have hbind := hchild.bind hrest
    simp only [List.foldlM_cons, emitPiece, hget']
    simpa [Piece.child?, hget] using hbind
  | _ => trivial

end ParallelTests
