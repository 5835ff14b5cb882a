import ParallelTests.Proofs.Parse.Decl

namespace ParallelTests

open Scan TokenGroup

lemma Scan.Strung.sync_length {src : List Char} {a : Nat} {pending : Bool} {ts : List Token}
    (ha : Sync src a) (h : Strung src a pending ts) : Sync src src.length := by
  induction h with
  | nil h => exact ha.reach h
  | written h _ hop _ ih => exact ih ((ha.reach h).reach (.single hop))
  | automatic h _ _ _ _ _ ih => exact ih (ha.reach h)

variable {src : Source} {s : TokenStream}

lemma TokenStream.of_ofSource (h : TokenStream.ofSource src = .ok s) :
    ∃ its, src.items = .ok its ∧ s.source = src ∧ s.tokens = its.filterMap Item.token? ∧
      s.comments = its.filterMap Item.comment? ∧ TokenGroup.ofTokens s.tokens = .ok s.groups := by
  unfold ofSource at h
  split at h
  · simp at h
  · next its hits =>
    dsimp only at h
    split at h
    · simp at h
    · next groups hg =>
      obtain rfl := Except.ok.inj h
      exact ⟨its, hits, rfl, rfl, rfl, hg⟩

lemma TokenStream.strung (h : TokenStream.ofSource src = .ok s) :
    Strung src.chars 0 false s.tokens := by
  obtain ⟨its, hits, -, htok, -⟩ := TokenStream.of_ofSource h
  exact htok ▸ strung_of_items hits rfl (Nat.zero_le _)

lemma TokenStream.scanned (h : TokenStream.ofSource src = .ok s) :
    Scanned src.chars 0 s.groups src.size ∧ ∃ line, Remarks line s.comments := by
  obtain ⟨its, hits, _, _, hcom, hgroups⟩ := TokenStream.of_ofSource h
  obtain ⟨ht, hm⟩ := tokens_of_ofTokens hgroups
  have hstr := TokenStream.strung h
  have hend := hstr.sync_length sync_zero
  refine ⟨⟨⟨0, false, [], sync_zero, ?_⟩, hm, sync_zero, hend, Nat.zero_le _, fun t ht' => ?_⟩,
    _, hcom ▸ remarks_of_items hits⟩
  · rwa [ht, List.append_nil]
  · rw [ht] at ht'
    exact ⟨Nat.zero_le _, (hstr.mem sync_zero ht').2.1.le_length⟩

namespace Parser

structure IsFile (src : Source) (n : Node) : Prop where
  lies : Lies src.chars (.node n) 0 src.size
  woven : Woven src.chars n
  kind_eq : n.kind = .file
  declared : ∀ d ∈ n.children, IsDeclared src.chars d.shape
  rising : Rising 0 n.starts src.size

lemma stream_ok {p : Placed} {line : Nat} (hr : Remarks line s.comments)
    (hs : Scanned s.source.chars 0 s.groups s.source.size) (h : stream s = .ok p) :
    IsFile s.source p.node := by
  unfold stream at h
  split at h
  · simp [failAtEnd] at h
  · next t rest hg =>
    rw [hg] at hs
    split at h
    · split at h
      · simp [failAtEnd] at h
      · next g rest =>
        obtain ⟨package, _, h⟩ := Except.bind_eq_ok_iff.1 h
        obtain ⟨ps, hps, h⟩ := Except.bind_eq_ok_iff.1 h
        obtain rfl := Except.pure_eq_ok_iff.1 h
        obtain ⟨hrow, hk⟩ := decls_ok hr hs.tail.tail hps
        have hweaves : Node.IsWoven s.source.chars (file s package.node.name ps).node := by
          rintro _ ⟨⟩
          exact ⟨_, rfl, hrow.weaves (getElem?_of_row [] rfl)⟩
        refine ⟨Rowed.woven [] (file s package.node.name ps).span hrow (by rintro ⟨⟩) rfl,
          .mk (List.forall_mem_map.2 fun p hp => (hk p hp).isDecl) ⟨rfl, shows_weave [] rfl (by simp)⟩
            hweaves (List.forall_mem_map.2 hrow.forall_woven), rfl, List.forall_mem_map.2 hk, ?_⟩
        rw [Placed.starts_node, Placed.inner]
        exact flatMap_starts ps ▸ hrow.rising
    · simp [fail] at h
  · simp [fail] at h

end Parser

lemma Source.isFile_of_parse {n : Node} (h : src.parse? = .ok n) : Parser.IsFile src n := by
  obtain ⟨s, hs, h⟩ := Except.bind_eq_ok_iff.1 h
  obtain ⟨p, hp, h⟩ := Except.bind_eq_ok_iff.1 h
  obtain rfl := Except.pure_eq_ok_iff.1 h
  obtain ⟨_, _, rfl, _⟩ := TokenStream.of_ofSource hs
  obtain ⟨hscan, line, hr⟩ := TokenStream.scanned hs
  exact Parser.stream_ok hr hscan hp

theorem Source.lies_of_parse {n : Node} (h : src.parse? = .ok n) :
    Lies src.chars (.node n) 0 src.size ∧ Formed n ∧ n.kind = .file :=
  have hfile := isFile_of_parse h
  ⟨hfile.lies, hfile.woven.formed, hfile.kind_eq⟩

theorem Source.rising_of_parse {n : Node} (h : src.parse? = .ok n) : Rising 0 n.starts src.size :=
  (isFile_of_parse h).rising

end ParallelTests
