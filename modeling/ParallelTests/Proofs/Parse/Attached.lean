import ParallelTests.Proofs.Parse.Bodies
import ParallelTests.Proofs.Parse.File

namespace ParallelTests

open Scan TokenGroup

namespace Parser

variable {s : TokenStream} {gs : List TokenGroup}

lemma importDecl_parted {t : Token} : Gives (Parted s ·.node.node) (importDecl s t gs) := by
  unfold importDecl
  split
  · trivial
  · next g rest =>
    have hdone (specs : List Placed) : Parted s (verbatim s (statementSpan t (g :: rest))
        (.importDecl (specs.map Placed.node))).node := .leaf rfl rfl
    dsimp only
    split
    · exact .bind_of_ok fun specs _ => hdone specs
    · exact .bind_of_ok fun spec _ => hdone [spec]

lemma typeSpec_parted (L : ∀ k, (partedLaw s).Below k) {follow : Token} (h : s.Has gs) :
    Gives (fun o => ∀ p ∈ o, Parted s p.node) (typeSpec s follow gs) := by
  unfold typeSpec
  split
  · exact (identifier_parted (s := s)).bind fun _ _ p hp => by cases hp
  · next g rest =>
    apply identifier_parted.bind
    intro name hname
    have hs := (aliasMark_suffix _).trans (typeParams_suffix g.first rest)
    dsimp only
    split
    · exact fun p hp => by cases hp
    · next st hst =>
      have hin : s.Has st.toList := Stretch.ofList?_eq_some_iff.1 hst ▸ h.tail.suffix hs
      apply ((L _).expr st (Nat.lt_succ_self _) hin _).bind
      rintro type htype _ ⟨⟩
      exact .of_kind rfl (List.forall_mem_cons.2 ⟨hname, List.forall_mem_singleton.2 htype⟩)

lemma typeDecl_parted (L : ∀ k, (partedLaw s).Below k) {t : Token} (h : s.Has gs) :
    Gives (Parted s ·.node.node) (typeDecl s t gs) := by
  unfold typeDecl
  split
  · trivial
  · next g rest =>
    have hdone (specs : List (Option Placed)) (hspecs : ∀ o ∈ specs, ∀ p ∈ o, Parted s p.node) :
        Parted s (verbatim s (statementSpan t (g :: rest))
          (.typeDecl ((specs.filterMap id).map Placed.node))).node := by
      refine .of_kind rfl (List.forall_mem_map.2 fun p hp => ?_)
      obtain ⟨o, ho, rfl⟩ := List.mem_filterMap.1 hp
      exact hspecs _ ho p rfl
    dsimp only
    split
    · next inner c =>
      exact (Gives.mapM fun st hst => typeSpec_parted L (h.inner.of_mem_split hst)).bind hdone
    · apply (typeSpec_parted L (h.upTo isSemicolon)).bind
      exact fun spec hspec => hdone [spec] (List.forall_mem_singleton.2 hspec)

lemma funcRest_parted (L : ∀ k, (partedLaw s).Below k) {t : Token} {recv : Option String}
    {name : Placed} (h : s.Has gs) : Gives (Parted s ·.node.node) (funcRest s t recv name gs) := by
  unfold funcRest
  split
  · next o params c rest =>
    apply ((L _).funcType params (Nat.lt_succ_self _) h.inner o c).bind
    intro type htype
    split
    · next bo inner bc after hsig =>
      have hbody := h.tail.suffix (suffix_of_signatureEnd hsig)
      apply ((L _).block inner (Nat.lt_succ_self _) bo bc hbody.head).bind
      intro body hb
      exact .of_kind rfl (List.forall_mem_cons.2 ⟨htype, List.forall_mem_singleton.2 hb⟩)
    · exact .of_kind rfl (List.forall_mem_singleton.2 htype)
  · exact .fail
  · trivial

lemma funcDecl_parted (L : ∀ k, (partedLaw s).Below k) {t : Token} (h : s.Has gs) :
    Gives (Parted s ·.node.node) (funcDecl s t gs) := by
  unfold funcDecl
  split
  · trivial
  · next g rest =>
    split
    · trivial
    · next recv m more hr =>
      have hs := receiver_suffix s (g :: rest)
      rw [hr] at hs
      apply (identifier_parted (s := s)).bind
      intro name hname
      split
      · trivial
      · apply (funcRest_parted L ((h.suffix hs).tail.suffix (afterTypeParams_suffix more))).bind
        exact fun step hstep => hstep

lemma genDecl_parted (L : ∀ k, (partedLaw s).Below k) {t : Token} (h : s.Has gs) :
    Gives (Parted s ·.node.node) (genDecl s t gs) := by
  unfold genDecl
  apply ((L _).rawNodes _ (Nat.lt_succ_self _) (h.upTo isSemicolon) false).bind
  intro nodes hn
  exact parted_raw (fun _ => rfl) (fun _ => rfl) hn

lemma decl_parted (L : ∀ k, (partedLaw s).Below k) {t : Token} (h : s.Has gs) :
    Gives (Parted s ·.node.node) (decl s t gs) := by
  unfold decl
  split
  · exact importDecl_parted
  · exact funcDecl_parted L h
  · exact typeDecl_parted L h
  · exact genDecl_parted L h
  · exact genDecl_parted L h
  · exact .fail

lemma decls_parted (L : ∀ k, (partedLaw s).Below k) (h : s.Has gs) :
    Gives (fun ps => ∀ p ∈ ps, Parted s p.node) (decls s gs) := by
  induction gs using decls.induct with
  | case1 =>
    rw [decls]
    exact fun p hp => by cases hp
  | case2 g rest hg ih =>
    rw [decls, if_pos hg]
    exact ih h.tail
  | case3 g rest hg ih =>
    rw [decls, if_neg hg]
    apply (decl_parted L h.tail).bind
    intro step hstep
    apply (ih step (h.tail.suffix step.rest_suffix)).bind
    exact fun ps hps => List.forall_mem_cons.2 ⟨hstep, hps⟩

lemma stream_parted {line : Nat} (hr : Remarks line s.comments) (h : s.Has s.groups) :
    Gives (Parted s ·.node) (stream s) := by
  have L := (partedLaw_inductive hr).below
  unfold stream
  split
  · trivial
  · next t rest hg =>
    rw [hg] at h
    split
    · split
      · trivial
      · next g rest =>
        apply (identifier_parted (s := s)).bind
        intro package _
        apply (decls_parted L h.tail.tail).bind
        exact fun ps hps => .of_kind rfl (List.forall_mem_map.2 hps)
    · exact .fail
  · exact .fail

end Parser

lemma TokenStream.has_groups {src : Source} {s : TokenStream} (h : ofSource src = .ok s) :
    s.Has s.groups := by
  obtain ⟨_, _, rfl, _, _, hgroups⟩ := of_ofSource h
  refine ⟨⟨_, _, (scanned h).1⟩, fun t ht => ?_⟩
  rwa [(TokenGroup.tokens_of_ofTokens hgroups).1] at ht

/-- At every block of a source's tree, and at every clause, the comments between its ends that are
not inside a statement are parted. Each stands behind the opening, behind one entry, or as a
statement, by the line on which it starts, and nothing changes its order. -/
theorem Source.parted_of_parse {src : Source} {file : Node} (h : src.parse = .ok file) :
    ∃ s, TokenStream.ofSource src = .ok s ∧ ∀ a n, file.at? a = some n →
      (n.kind = .block → n.IsBlockOf s) ∧ (n.kind = .caseClause → n.IsClauseOf s) := by
  obtain ⟨s, hs, h⟩ := Except.bind_eq_ok_iff.1 (Except.mapError_eq_ok_iff.1 h)
  obtain ⟨p, hp, h⟩ := Except.bind_eq_ok_iff.1 h
  obtain rfl := Except.pure_eq_ok_iff.1 h
  obtain ⟨_, _, rfl, _⟩ := TokenStream.of_ofSource hs
  obtain ⟨hscan, line, hr⟩ := TokenStream.scanned hs
  have hfile : Parted s p.node := (Parser.stream_parted hr (TokenStream.has_groups hs)).of_ok hp
  refine ⟨s, hs, fun a n hn => ?_⟩
  cases Node.of_at? (fun _ h => h.children) hfile hn with
  | mk hb hc _ => exact ⟨hb, hc⟩

def Node.trails (n : Node) : Kind × List (Kind × Option String) :=
  (n.kind, n.children.map fun m => (m.kind, m.layout.trailing))

def commentedSource : Source :=
  .ofString "a.go" "package p\nfunc f() \x7b // a\n\tx() // b\n\n\t// c\n\ty() /* d\n\t*/ // e\n\tswitch x \x7b\n\tcase 1: // g\n\t\tz()\n\t\x7d\n\x7d\n"

set_option maxRecDepth 100000 in
theorem Source.parted_of_parse_commentedSource :
    ∃ file s n m, commentedSource.parse = .ok file ∧ TokenStream.ofSource commentedSource = .ok s ∧
      file.at? [0, 1] = some n ∧ n.IsBlockOf s ∧
      n.trails = (.block, [(.exprStmt, some "// b"), (.comment, none),
        (.exprStmt, some "/* d\n\t*/ // e"), (.rawStmt, none)]) ∧
      file.at? [0, 1, 3, 0, 0] = some m ∧ m.IsClauseOf s ∧
      m.trails = (.caseClause, [(.rawExpr, none), (.exprStmt, none)]) := by
  have h : commentedSource.parse.toOption.any (fun file =>
      (file.at? [0, 1]).map Node.trails = some (.block, [(.exprStmt, some "// b"), (.comment, none),
          (.exprStmt, some "/* d\n\t*/ // e"), (.rawStmt, none)]) ∧
        (file.at? [0, 1, 3, 0, 0]).map Node.trails =
          some (.caseClause, [(.rawExpr, none), (.exprStmt, none)])) = true := by decide +kernel
  obtain ⟨file, hfile, h⟩ := (Option.any_eq_true _ _).1 h
  obtain ⟨hn, hm⟩ := of_decide_eq_true h
  obtain ⟨n, hn, htrails⟩ := Option.map_eq_some_iff.1 hn
  obtain ⟨m, hm, htrails'⟩ := Option.map_eq_some_iff.1 hm
  replace hfile := Except.toOption_eq_some.1 hfile
  obtain ⟨s, hs, hparted⟩ := Source.parted_of_parse hfile
  exact ⟨file, s, n, m, hfile, hs, hn, (hparted _ n hn).1 (congrArg Prod.fst htrails), htrails, hm,
    (hparted _ m hm).2 (congrArg Prod.fst htrails'), htrails'⟩

end ParallelTests
