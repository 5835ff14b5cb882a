import ParallelTests.Proofs.Edit.Filled
import ParallelTests.Run.Worker

namespace ParallelTests

open Scan

namespace Filled

variable {src : List Char} {ins ins' : List (Nat × Insert)} {a m b : Nat} {ns : List Node}
  {ps : List Piece}

lemma behind_left (h : ∀ p ∈ ins', m ≤ p.1) {o : Nat} (ho : o < m) :
    behind (ins ++ ins') o = behind ins o := by
  have hnil : behind ins' o = [] := behind_eq_nil fun p hp => by
    have := h p hp
    omega
  rw [behind_append, hnil, List.append_nil]

lemma behind_right (h : ∀ p ∈ ins, p.1 < m) {o : Nat} (ho : m ≤ o) :
    behind (ins ++ ins') o = behind ins' o := by
  have hnil : behind ins o = [] := behind_eq_nil fun p hp => by
    have := h p hp
    omega
  rw [behind_append, hnil, List.nil_append]

lemma text {ms : List Mark} (hsync : Sync src a) (hr : Reach src a ms m)
    (h : Filled src ins (.pieces ns ps) m b) :
    Filled src ins (.pieces ns (.text (String.ofList (cut src a m)) :: ps)) a b := by
  have hle := hr.le
  refine ⟨.text hsync hr (fun o _ ho => behind_eq_nil fun p hp => ?_) h.laid, fun p hp => ?_,
    h.braces, h.nodup⟩
  · have := h.within p hp
    omega
  · have := h.within p hp
    omega

lemma child {i : Nat} {n : Node} (hi : ns[i]? = some n) (hn : Filled src ins (.node n) a m)
    (h : Filled src ins' (.pieces ns ps) m b) :
    Filled src (ins ++ ins') (.pieces ns (.child i :: ps)) a b := by
  have hle := hn.laid.le
  have hle' := h.laid.le
  have hleft (p : Nat × Insert) (hp : p ∈ ins) : p.1 < m := (hn.within p hp).2
  have hright (p : Nat × Insert) (hp : p ∈ ins') : m ≤ p.1 := (h.within p hp).1
  have hlaid : Laid src (behind (ins ++ ins')) (.node n) a m :=
    hn.laid.congr fun o _ ho => behind_left hright ho
  have hlaid' : Laid src (behind (ins ++ ins')) (.pieces ns ps) m b :=
    h.laid.congr fun o ho _ => behind_right hleft ho
  refine ⟨.child hi hlaid hlaid', ?_, List.forall_mem_append.2 ⟨hn.braces, h.braces⟩, ?_⟩
  · refine List.forall_mem_append.2 ⟨fun p hp => ?_, fun p hp => ?_⟩
    · have := hn.within p hp
      omega
    · have := h.within p hp
      omega
  · rw [List.map_append, List.nodup_append]
    refine ⟨hn.nodup, h.nodup, ?_⟩
    intro o ho o' ho' he
    obtain ⟨p, hp, rfl⟩ := List.mem_map.1 ho
    obtain ⟨p', hp', rfl⟩ := List.mem_map.1 ho'
    have := hleft p hp
    have := hright p' hp'
    omega

lemma woven {span : Option Span} {layout : Layout} {shape : Shape} (hk : shape.kind ≠ .block)
    (h : Filled src ins (.pieces shape.children ps) a b) :
    Filled src ins (.node (.mk span layout (some ps) shape)) a b :=
  ⟨.woven hk h.laid, h.within, h.braces, h.nodup⟩

end Filled

lemma Shows.all {ns : List Node} {ps : List Piece} (h : Shows ns ps)
    (hs : ∀ n ∈ ns, n.kind.isSilent = false) :
    ps.filterMap Piece.child? = List.range' 0 ns.length := by
  obtain ⟨-, k, hk, hsilent⟩ := h
  cases ns with
  | nil => simpa using hk
  | cons n ns =>
    cases k with
    | zero => simpa using hk
    | succ k => simpa [hs n (by simp)] using hsilent n (by simp)

inductive Decided (c : Config) : List Node → List Outcome → List (Nat × Insert) → Prop
  | nil : Decided c [] [] []
  | func {decl : Node} {o : Outcome} {ds : List Node} {os : List Outcome}
      {ins ins' : List (Nat × Insert)} (hd : decl.isFuncDecl = true)
      (hn : o.function = decl.funcName) (hg : Gains c decl o.status ins)
      (hs : Decided c ds os ins') : Decided c (decl :: ds) (o :: os) (ins ++ ins')
  | other {decl : Node} {ds : List Node} {os : List Outcome} {ins : List (Nat × Insert)}
      (hd : decl.isFuncDecl = false) (hs : Decided c ds os ins) : Decided c (decl :: ds) os ins

lemma Edit.function_ok {c : Config} {types : TypeTable} {place : Place} {path : String}
    {log : Log.Logger} {decl : Node} {o : Outcome}
    (h : (Edit.function c types place path log decl).result = .ok o) : o.function = decl.funcName := by
  unfold Edit.function at h
  dsimp only at h
  split at h
  · obtain rfl := Except.ok.inj h
    rfl
  · split at h
    · cases h
    · obtain ⟨_, _, rfl⟩ := Except.map_eq_ok_iff.1 h
      rfl
    · obtain rfl := Except.ok.inj h
      rfl

namespace Worker

variable {c : Config} {types : TypeTable} {index : Nat} {path : String} {log : Log.Logger}

lemma decls_cons {i : Nat} {d : Node} {ds : List Node} {outcomes : List Outcome}
    (h : (decls c types index path log i (d :: ds)).result = .ok outcomes) :
    (d.isFuncDecl = true ∧ ∃ log' o os, outcomes = o :: os ∧
      (Edit.function c types ⟨index, [i]⟩ path log' d).result = .ok o ∧
      (decls c types index path log (i + 1) ds).result = .ok os ∧
      (decls c types index path log i (d :: ds)).state =
        (Edit.function c types ⟨index, [i]⟩ path log' d).state ::
          (decls c types index path log (i + 1) ds).state) ∨
    (d.isFuncDecl = false ∧ (decls c types index path log (i + 1) ds).result = .ok outcomes ∧
      (decls c types index path log i (d :: ds)).state =
        d :: (decls c types index path log (i + 1) ds).state) := by
  rw [decls] at h ⊢
  split
  · next hfunc =>
    rw [if_pos hfunc] at h
    dsimp only at h ⊢
    generalize log.withContext _ = log' at h ⊢
    cases ho : (Edit.function c types ⟨index, [i]⟩ path log' d).result with
    | error breach => simp [ho] at h
    | ok o =>
      simp only [ho] at h ⊢
      obtain ⟨os, hos, rfl⟩ := Except.map_eq_ok_iff.1 h
      exact .inl ⟨hfunc, log', o, os, rfl, ho, hos, rfl⟩
  · next hfunc =>
    rw [if_neg hfunc] at h
    exact .inr ⟨by simpa using hfunc, h, rfl⟩

lemma filled_decls {src : List Char} {ns : List Node} (ns' : List Node) {ps : List Piece}
    {a b k i : Nat} {outcomes : List Outcome} (hm : IsIdentifier c.parallelMethod)
    (hv : IsIdentifier c.caseVar)
    (hf : ∀ n ∈ ns, Formed n ∧ n.PlainParams) (h : Lies src (.pieces ns ps) a b)
    (hk : ps.filterMap Piece.child? = List.range' k (ns.length - k))
    (hr : (decls c types index path log i (ns.drop k)).result = .ok outcomes)
    (hns : ns'.drop k = (decls c types index path log i (ns.drop k)).state) :
    ∃ ins, Decided c (ns.drop k) outcomes ins ∧ Filled src ins (.pieces ns' ps) a b := by
  generalize hpart : Part.pieces ns ps = part at h
  induction h generalizing ps k i outcomes with
  | @done children a ha =>
    obtain ⟨rfl, rfl⟩ := Part.pieces.inj hpart
    have hnil : ns.drop k = [] := by
      have := congrArg List.length hk
      simp only [List.filterMap_nil, List.length_nil, List.length_range'] at this
      exact List.drop_eq_nil_iff.2 (by omega)
    rw [hnil] at hr ⊢
    obtain rfl := Except.ok.inj hr
    exact ⟨[], .nil, .empty (.done ha)⟩
  | @text children ps' a m b ms hsync hreach _ _ ih =>
    obtain ⟨rfl, rfl⟩ := Part.pieces.inj hpart
    have hk' : ps'.filterMap Piece.child? = List.range' k (ns.length - k) := hk
    obtain ⟨ins, hd, hfill⟩ := ih hk' hr hns rfl
    exact ⟨ins, hd, hfill.text hsync hreach⟩
  | @child children ps' j n a m b hj hn h _ ih =>
    obtain ⟨rfl, rfl⟩ := Part.pieces.inj hpart
    rw [List.filterMap_cons_some (f := Piece.child?) (b := j) rfl] at hk
    obtain ⟨d, hd⟩ : ∃ d, ns.length - k = d + 1 := by
      refine Nat.exists_eq_succ_of_ne_zero fun hz => ?_
      rw [hz] at hk
      cases hk
    rw [hd, List.range'_succ] at hk
    obtain ⟨rfl, hk⟩ := List.cons.inj hk
    rw [show d = ns.length - (j + 1) by omega] at hk
    have hdrop : ns.drop j = n :: ns.drop (j + 1) := by
      obtain ⟨hlt, rfl⟩ := List.getElem?_eq_some_iff.1 hj
      exact List.drop_eq_getElem_cons hlt
    have hstep (m' : Node) (ms : List Node) (hs : ns'.drop j = m' :: ms) :
        ns'[j]? = some m' ∧ ns'.drop (j + 1) = ms := by
      constructor
      · have := congrArg (·[0]?) hs
        simpa [List.getElem?_drop] using this
      · rw [← List.tail_drop, hs, List.tail_cons]
    obtain ⟨hformed, hplain⟩ := hf n (List.mem_of_getElem? hj)
    rw [hdrop] at hr hns ⊢
    rcases decls_cons hr with ⟨hfunc, log', o, os, rfl, ho, hos, hstate⟩ | ⟨hfunc, hos, hstate⟩
    · rw [hstate] at hns
      obtain ⟨hget, hrest⟩ := hstep _ _ hns
      have hdid := Edit.did_function c types ⟨index, [i]⟩ path log' n
      rw [ho] at hdid
      obtain ⟨ins, hgains, hfill⟩ := hdid.gains hn hformed hplain hm hv
      obtain ⟨ins', hdec, hfill'⟩ := ih hk hos hrest rfl
      exact ⟨ins ++ ins', .func hfunc (Edit.function_ok ho) hgains hdec, hfill.child hget hfill'⟩
    · rw [hstate] at hns
      obtain ⟨hget, hrest⟩ := hstep _ _ hns
      obtain ⟨ins, hdec, hfill⟩ := ih hk hos hrest rfl
      exact ⟨ins, .other hfunc hdec, Filled.child hget (.empty hn) hfill⟩
  | _ => cases hpart

lemma filled_file {src : List Char} {f : Node} {a b : Nat} {outcomes : List Outcome}
    (hm : IsIdentifier c.parallelMethod) (hv : IsIdentifier c.caseVar) (hf : Formed f)
    (hp : f.PlainParams) (hk : f.kind = .file) (h : Lies src (.node f) a b)
    (hr : (file c types index log f).result = .ok outcomes) :
    ∃ ins, Decided c f.children outcomes ins ∧
      Filled src ins (.node (file c types index log f).state) a b := by
  cases h with
  | block => cases hk
  | @woven span layout ps shape _ _ hkind h =>
    cases shape with
    | file name package imports ds =>
      have hall := hf.backed.2.all fun n hn => by
        have hdecl : n.kind.isDecl = true := hf.proper n hn
        cases hn : n.kind <;> first | rfl | simp [hn, Kind.isDecl] at hdecl
      obtain ⟨ins, hdec, hfill⟩ := filled_decls (decls c types index name log 0 ds).state hm hv
        (fun n hn => ⟨hf.child hn, hp.child hn⟩) h hall hr rfl
      exact ⟨ins, hdec, hfill.woven (by rintro ⟨⟩)⟩
    | _ => cases hk

/-- A text with the tokens of a source, and with those of the statements that the outcomes for the
declarations of a file stand for, each behind a brace of its own. -/
def Reports (c : Config) (src : Source) (file : Node) (path text : String)
    (outcomes : List Outcome) : Prop :=
  ∃ s t ins, TokenStream.ofSource src = .ok s ∧
    TokenStream.ofSource (.ofString path text) = .ok t ∧ Decided c file.children outcomes ins ∧
    (∀ p ∈ ins, ∃ token ∈ s.tokens, token.start = p.1 ∧ token.lexeme = .openCurly) ∧
    (ins.map Prod.fst).Nodup ∧ t.words = s.wordsWith (behind ins)

lemma reports_of_visit {src : Source} {f : Node} {done : FileResult}
    (hm : IsIdentifier c.parallelMethod) (hv : IsIdentifier c.caseVar) (hsrc : src.parse = .ok f)
    (hp : f.PlainParams) (ht : isTestFile c f = true) (path : String)
    (h : (visit c types log index f).result = .ok done) :
    ∃ text outcomes, done = ⟨some text, some outcomes⟩ ∧ Reports c src f path text outcomes := by
  obtain ⟨hlies, hformed, hkind⟩ := Source.lies_of_parse (Source.parse_eq_ok_iff.1 hsrc)
  obtain ⟨s, hs⟩ := Source.ofSource_of_parse? (Source.parse_eq_ok_iff.1 hsrc)
  unfold visit at h
  rw [if_pos ht] at h
  dsimp only at h
  split at h
  · cases h
  · next outcomes hout =>
    split at h
    · cases h
    · next text hrender =>
      obtain ⟨ins, hdec, hfill⟩ := filled_file hm hv hformed hp hkind hlies hout
      obtain ⟨t, hread, hwords⟩ := hfill.words hs hrender path
      exact ⟨text, outcomes, (Except.ok.inj h).symm, s, t, ins, hs, hread, hdec,
        fun p hp => TokenStream.exists_of_brace hs (hfill.braces p hp), hfill.nodup, hwords⟩

lemma files_spec (c : Config) (types : TypeTable) (log : Log.Logger) (fs : List Node) (i : Nat) :
    ∃ done : List FileResult,
      (files c types log i fs).state.writes = done.filterMap (·.written) ∧
      (∀ told, (files c types log i fs).result = .ok told → done.length = fs.length ∧
        told.flatMap (·.2) = done.flatMap (·.outcomes.getD [])) ∧
      ∀ (j : Nat) (d : FileResult), done[j]? = some d →
        ∃ f, fs[j]? = some f ∧ (visit c types log (i + j) f).result = .ok d := by
  induction fs generalizing i with
  | nil =>
    refine ⟨[], rfl, fun told h => ?_, by simp⟩
    obtain rfl := Except.ok.inj h
    exact ⟨rfl, rfl⟩
  | cons f fs ih =>
    rw [files]
    dsimp only
    cases hr : (visit c types log i f).result with
    | error e => exact ⟨[], rfl, by simp, by simp⟩
    | ok d =>
      obtain ⟨done, hw, htold, hall⟩ := ih (i + 1)
      refine ⟨d :: done, ?_, fun told h => ?_, fun j d' hj => ?_⟩
      · rw [hw, List.filterMap_cons]
        cases hwritten : d.written <;> simp [hwritten]
      · obtain ⟨more, hmore, rfl⟩ := Except.map_eq_ok_iff.1 h
        obtain ⟨hlen, hfun⟩ := htold more hmore
        refine ⟨by simp [hlen], ?_⟩
        rw [List.flatMap_append, hfun, List.flatMap_cons]
        cases d.outcomes <;> simp
      · cases j with
        | zero =>
          obtain rfl := Option.some.inj hj
          exact ⟨f, rfl, hr⟩
        | succ j =>
          obtain ⟨f', hf', hv⟩ := hall j d' hj
          exact ⟨f', hf', by rwa [Nat.add_assoc, Nat.add_comm 1] at hv⟩

/-- The texts that the work on a unit writes have, for every test file, the tokens of its source and
the statements that the reported outcomes of its functions stand for, and no others. -/
theorem run_reports (c : Config) (log : Log.Logger) (u : CompilationUnit) (srcs : List Source)
    (path : String) (hm : IsIdentifier c.parallelMethod) (hv : IsIdentifier c.caseVar)
    (hu : List.Forall₂ (fun src f => src.parse = .ok f) srcs u.files)
    (hp : ∀ f ∈ u.files, f.PlainParams) :
    ∃ done : List FileResult, (run c log u).state.writes = done.filterMap (·.written) ∧
      (∀ report, (run c log u).result = .ok report → done.length = u.files.length ∧
        report.functions = done.flatMap (·.outcomes.getD [])) ∧
      ∀ (i : Nat) (d : FileResult), done[i]? = some d → ∃ src f, srcs[i]? = some src ∧
        u.files[i]? = some f ∧ (isTestFile c f = true → ∃ text outcomes,
          d = ⟨some text, some outcomes⟩ ∧ Reports c src f path text outcomes) := by
  obtain ⟨done, hw, htold, hall⟩ := files_spec c u.types (log.withContext [("unit", .text u.id)])
    u.files 0
  refine ⟨done, ?_, fun report hr => ?_, fun i d hd => ?_⟩
  · unfold run
    dsimp only
    split <;> exact hw
  · unfold run at hr
    dsimp only at hr
    split at hr
    · cases hr
    · next told hresult =>
      obtain ⟨hlen, hfun⟩ := htold told hresult
      obtain rfl := Except.ok.inj hr
      exact ⟨hlen, hfun⟩
  · obtain ⟨f, hf, hvisit⟩ := hall i d hd
    obtain ⟨hlt, rfl⟩ := List.getElem?_eq_some_iff.1 hf
    have hlt' : i < srcs.length := hu.length_eq ▸ hlt
    refine ⟨srcs[i], u.files[i], List.getElem?_eq_getElem hlt', hf, fun ht => ?_⟩
    exact reports_of_visit hm hv (hu.get hlt' hlt) (hp _ (List.getElem_mem hlt)) ht path hvisit

def single (file : Node) (types : TypeTable) : CompilationUnit :=
  ⟨"p.test", "p", "p", [file], types⟩

set_option maxRecDepth 100000 in
theorem run_reports_nestedSource :
    ∃ file types report text, (nestedSource "x()").parse = .ok file ∧
      Types.resolveAll "p" [file] = .ok types ∧ (run {} {} (single file types)).result = .ok report ∧
      report.functions.map (·.status) = [.subtestParallelized] ∧
      (run {} {} (single file types)).state.writes = [text] ∧
      Reports {} (nestedSource "x()") file "b_test.go" text report.functions := by
  have h : ∃ file, (nestedSource "x()").parse = .ok file ∧ file.PlainParams ∧
      isTestFile {} file = true ∧ ((Types.resolveAll "p" [file]).toOption.bind fun types =>
        (run {} {} (single file types)).result.toOption.map (·.functions.map (·.status))) =
          some [.subtestParallelized] := Source.exists_of_parse (by decide +kernel)
  obtain ⟨file, hparse, hp, ht, h⟩ := h
  obtain ⟨types, htypes, h⟩ := Option.bind_eq_some_iff.1 h
  obtain ⟨report, hreport, hstatus⟩ := Option.map_eq_some_iff.1 h
  have hreport := Except.toOption_eq_some.1 hreport
  obtain ⟨done, hw, hdone, hall⟩ := run_reports {} {} (single file types) [nestedSource "x()"]
    "b_test.go" (by decide +kernel) (by decide +kernel) (.cons hparse .nil)
    (List.forall_mem_singleton.2 hp)
  obtain ⟨hlen, hfun⟩ := hdone report hreport
  obtain ⟨d, rfl⟩ := List.length_eq_one_iff.1 hlen
  obtain ⟨src, f, hsrc, hf, hreports⟩ := hall 0 d rfl
  obtain rfl := Option.some.inj hsrc
  obtain rfl := Option.some.inj hf
  obtain ⟨text, outcomes, rfl, hr⟩ := hreports ht
  have hfun : report.functions = outcomes := by simpa using hfun
  exact ⟨_, types, report, text, hparse, Except.toOption_eq_some.1 htypes, hreport, hstatus, hw, hfun ▸ hr⟩

end Worker

end ParallelTests
