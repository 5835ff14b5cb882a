import Mathlib.Logic.Relation
import ParallelTests.Proofs.Edit.Complete
import ParallelTests.Proofs.Print.Bodies

namespace ParallelTests

open Scan Printer

namespace Node

variable {n m : Node}

def Bodied (n : Node) : Prop := ∀ m, n.at? [1] = some m → m.kind = .block

lemma frame_modifyAt {f : Node → Node} (hf : ∀ m, Alike m (f m)) {p : Address} (q : Address)
    (hp : ∀ m, n.at? p = some m → m.kind = .block) : (n.modifyAt f (p ++ q)).frame = n.frame := by
  induction p generalizing n with
  | nil =>
    have hk := hp n rfl
    rw [List.nil_append, frame_of_block hk, frame_of_block ((alike_modifyAt hf q n).kind.trans hk)]
  | cons i p ih =>
    have halike := alike_modifyAt hf (i :: p ++ q) n
    by_cases hk : n.kind = .block
    · rw [frame_of_block hk, frame_of_block (halike.kind.trans hk)]
    · rw [frame_of_ne hk, frame_of_ne (by rwa [halike.kind]), halike.kind, halike.pieces]
      congr 1
      apply List.ext_getElem?
      intro j
      rw [List.cons_append, children_modifyAt, List.getElem?_map, List.getElem?_map,
        List.getElem?_modify]
      cases hc : n.children[j]? with
      | none => rfl
      | some c =>
        by_cases hj : i = j
        · subst hj
          have hin : (c.modifyAt f (p ++ q)).frame = c.frame :=
            ih fun m hm => hp m (by rw [at?_cons, hc, Option.bind_some, hm])
          simp [hin]
        · simp [hj]

lemma Bodied.of_frame (h : n.Bodied) (hk : n.kind ≠ .block) (hf : m.frame = n.frame) :
    m.Bodied := by
  intro b hb
  rw [at?_singleton] at hb
  have hsecond : n.children[1]?.map frame = some b.frame := by
    rw [← List.getElem?_map, ← (pieces_of_frame hf hk).2, List.getElem?_map, hb, Option.map_some]
  obtain ⟨b', hb', hframe⟩ := Option.map_eq_some_iff.1 hsecond
  rw [← kind_of_frame hframe]
  exact h b' (by rwa [at?_singleton])

lemma Bodied.modifyAt (h : n.Bodied) {f : Node → Node} (hf : ∀ m, Alike m (f m)) (q : Address) :
    (n.modifyAt f (1 :: q)).frame = n.frame ∧ (n.modifyAt f (1 :: q)).Bodied := by
  refine ⟨frame_modifyAt (p := [1]) hf q h, fun b hb => ?_⟩
  obtain ⟨body, hbody, rfl⟩ :=
    Option.map_eq_some_iff.1 ((at?_modifyAt_append f [1] q n).symm.trans hb)
  rw [(alike_modifyAt hf q body).kind]
  exact h body hbody

lemma bodied_of_formed (h : Formed n) (hk : n.kind = .funcDecl) : n.Bodied := by
  obtain ⟨span, layout, pieces, shape⟩ := n
  cases shape with
  | funcDecl name type signature recv body =>
    intro m hm
    rw [at?_singleton] at hm
    exact h.proper.2 m (Option.mem_toList.1 (List.mem_of_getElem? (i := 0) hm))
  | _ => cases hk

lemma kind_of_isFuncDecl (h : n.isFuncDecl = true) : n.kind = .funcDecl := by
  unfold isFuncDecl at h
  split at h
  · next hs => rw [kind, hs]; rfl
  · cases h

end Node

namespace Edit

variable {c : Config} {types : TypeTable} {place : Place} {decl : Node}

lemma frame_apply (h : decl.Bodied) {plan : Plan} (hp : Plan.of c decl decl.handleName = .ok plan) :
    (plan.apply c decl).frame = decl.frame ∧ (plan.apply c decl).Bodied := by
  cases plan with
  | abort => exact ⟨rfl, h⟩
  | simple handle => exact h.modifyAt (Node.alike_prepend _) []
  | subtest stmt handle =>
    obtain ⟨_, _, rel, -, -, rfl, -⟩ := Plan.of_subtest hp
    exact h.modifyAt (Node.alike_prepend _) (rel ++ [0, 2, 1])

lemma Did.frame {state : Node} {result : Except Breach Status} (h : decl.Bodied)
    (hd : Did c types place decl state result) : state.frame = decl.frame := by
  cases hd with
  | ignored | aborted | lost => rfl
  | simple _ hp | subtest _ hp | astray _ hp => exact (frame_apply h hp).1
  | rebound _ hp hr =>
    obtain ⟨hframe, hbodied⟩ := frame_apply h hp
    obtain ⟨_, k, loop, _, -, -, rfl, -⟩ := Repair.of_rebind hr
    exact ((hbodied.modifyAt (Node.alike_prepend _) [k, loop.children.length - 1]).1).trans hframe

end Edit

namespace Worker

variable (c : Config) (types : TypeTable) (index : Nat) (path : String) (log : Log.Logger)

lemma frame_decls {ds : List Node} (h : ∀ d ∈ ds, d.kind = .funcDecl → d.Bodied) (i : Nat) :
    (decls c types index path log i ds).state.map Node.frame = ds.map Node.frame := by
  induction ds generalizing i with
  | nil => rfl
  | cons d ds ih =>
    have hrest := ih (fun d hd => h d (by simp [hd])) (i + 1)
    rw [decls]
    split
    · next hfunc =>
      have hdid := (Edit.did_function c types ⟨index, [i]⟩ path
        (log.withContext [("func", .text d.funcName)]) d).frame
          (h d (by simp) (Node.kind_of_isFuncDecl hfunc))
      dsimp only
      split
      · rw [List.map_cons, List.map_cons, hdid]
      · rw [List.map_cons, List.map_cons, hdid, hrest]
    · rw [List.map_cons, List.map_cons, hrest]

lemma frame_file {f : Node} (h : ∀ d ∈ f.children, d.kind = .funcDecl → d.Bodied) :
    (file c types index log f).state.frame = f.frame := by
  have hdecls := frame_decls c types index f.filePath log h 0
  unfold file
  dsimp only
  generalize (decls c types index f.filePath log 0 f.children).state = ds at hdecls ⊢
  unfold Node.withDecls
  split
  · next hs =>
    obtain ⟨span, layout, pieces, shape⟩ := f
    obtain rfl : shape = _ := hs
    rw [Node.frame_of_ne (by rintro ⟨⟩), Node.frame_of_ne (by rintro ⟨⟩)]
    exact congrArg (Frame.node .file pieces) hdecls
  · rfl

/-- One pass over a file: its functions are edited, whatever the settings and the types are. The
edits that were made before a failure stay. -/
def Pass (f f' : Node) : Prop := ∃ c types index log, (file c types index log f).state = f'

lemma frame_of_passes {f f' : Node} (hk : f.kind = .file)
    (h : ∀ d ∈ f.children, d.kind = .funcDecl → d.Bodied)
    (hp : Relation.ReflTransGen Pass f f') : f'.frame = f.frame := by
  induction hp with
  | refl => rfl
  | tail _ hstep ih =>
    obtain ⟨c, types, index, log, rfl⟩ := hstep
    refine (frame_file c types index log fun d hd hkind => ?_).trans ih
    -- a declaration has the frame of one in the file that was parsed, where bodies are blocks
    have hmem : d.frame ∈ f.children.map Node.frame := by
      rw [← (Node.pieces_of_frame ih (by rw [hk]; rintro ⟨⟩)).2]
      exact List.mem_map_of_mem hd
    obtain ⟨d₀, hd₀, hframe⟩ := List.mem_map.1 hmem
    have hkind₀ : d₀.kind = .funcDecl := (Node.kind_of_frame hframe).trans hkind
    exact (h d₀ hd₀ hkind₀).of_frame (by rw [hkind₀]; rintro ⟨⟩) hframe.symm

end Worker

/-- What is printed for a file that was parsed, after any number of passes over it, is its source
with a text in braces for each of its outermost blocks, which are the bodies of its functions and of
the function literals in its variables and constants. A file without any can be printed, and what is
printed is the source. -/
theorem spliced_of_passes {src : Source} {file f : Node} (hp : src.parse = .ok file)
    (h : Relation.ReflTransGen Worker.Pass file f) :
    file.bodies = file.children.flatMap Node.declBodies ∧
      (∀ out, f.render = .ok out → Spliced src.chars src.size 0 file.bodies out.toList) ∧
        (file.bodies = [] → f.render = .ok (String.ofList src.chars)) := by
  obtain ⟨hlies, hformed, hkind⟩ := Source.lies_of_parse (Source.parse_eq_ok_iff.1 hp)
  have hframe := Worker.frame_of_passes hkind
    (fun d hd hk => Node.bodied_of_formed (hformed.child hd) hk) h
  have hkeeps := hlies.keeping hformed f hframe
  have hsplice (out : String) (hr : f.render = .ok out) :
      Spliced src.chars src.size 0 file.bodies out.toList := by
    unfold Node.render at hr
    split at hr
    · next page hpage =>
      obtain rfl := Except.ok.inj hr
      obtain ⟨w, hw, hs⟩ := hkeeps.adds .empty page hpage
      rwa [show page.text.toList = w from hw]
    · cases hr
  refine ⟨Node.bodies_of_file hformed hkind, hsplice, fun hnil => ?_⟩
  obtain ⟨page, hpage⟩ := hkeeps.prints hnil .empty
  have hr : f.render = .ok page.text := by
    unfold Node.render
    rw [hpage]
  have hs := hsplice _ hr
  rw [hnil] at hs
  generalize hw : page.text.toList = w at hs
  cases hs with
  | rest =>
    rw [hr, ← String.ofList_toList (s := page.text), hw]
    simp [cut, Source.size]

def literalSource : Source :=
  .ofString "a_test.go" ("package p // p\nimport \"testing\";;\n" ++
    "var x,y = func( ) \x7bf()\x7d,  g()\n" ++
    "func  TestA( t *testing.T ) \x7b\n y() \x7d // end\nfunc g()\n")

def literalText : String :=
  "package p // p\nimport \"testing\";;\n" ++
    "var x,y = func( ) \x7b f() \x7d,  g()\n" ++
    "func  TestA( t *testing.T ) \x7b\n\tt.Parallel()\n\tt.Parallel()\n\ty()\n\x7d // end\nfunc g()\n"

set_option maxRecDepth 100000 in
theorem spliced_of_passes_literalSource :
    ∃ file f, literalSource.parse = .ok file ∧ Relation.ReflTransGen Worker.Pass file f ∧
      file.bodies.length = 2 ∧ f.render = .ok literalText ∧
      Spliced literalSource.chars literalSource.size 0 file.bodies literalText.toList := by
  have h : ∃ file, literalSource.parse = .ok file ∧ file.bodies.length = 2 ∧
      ((Types.resolveAll "p" [file]).toOption.bind fun types =>
        (Worker.file {} types 0 {} (Worker.file {} types 0 {} file).state).state.render.toOption) =
          some literalText := Source.exists_of_parse (by decide +kernel)
  obtain ⟨file, hparse, hlen, h⟩ := h
  obtain ⟨types, -, h⟩ := Option.bind_eq_some_iff.1 h
  have hrender := Except.toOption_eq_some.1 h
  have hpass (g : Node) : Worker.Pass g (Worker.file {} types 0 {} g).state :=
    ⟨{}, types, 0, {}, rfl⟩
  have hpasses := Relation.ReflTransGen.tail (.single (hpass file)) (hpass _)
  exact ⟨file, _, hparse, hpasses, hlen, hrender, (spliced_of_passes hparse hpasses).2.1 _ hrender⟩

end ParallelTests
