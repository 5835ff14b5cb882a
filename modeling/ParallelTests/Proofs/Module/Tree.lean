import Mathlib.Data.List.Nodup
import Mathlib.Tactic.Common
import ParallelTests.Module.Load

/-!
Directory trees: which directories of a module hold packages, each once, and that no two files of a
tree have one path.
-/

namespace ParallelTests

namespace Listing

def names : Listing → List String
  | empty => []
  | file name _ rest => name :: rest.names
  | folder name _ rest => name :: rest.names

/-- The names in a directory are different and hold no slash, at any depth. -/
inductive Proper : Listing → Prop
  | empty : Proper .empty
  | file {name : String} {text : Option String} {rest : Listing} (hn : '/' ∉ name.toList)
      (hd : name ∉ rest.names) (hr : Proper rest) : Proper (.file name text rest)
  | folder {name : String} {inside rest : Listing} (hn : '/' ∉ name.toList)
      (hd : name ∉ rest.names) (hi : Proper inside) (hr : Proper rest) :
      Proper (.folder name inside rest)

def folderAt : List String → Listing → Option Listing
  | [], l => some l
  | name :: names, l =>
    match l.get? name with
    | some (.folder inside) => folderAt names inside
    | _ => none

variable {l inside : Listing} {name : String}

lemma mem_names_of_get? {e : Entry} (h : l.get? name = some e) : name ∈ l.names := by
  induction l with
  | empty => cases h
  | file n text rest ih =>
    rw [get?] at h
    split at h
    · next he => exact he ▸ List.mem_cons_self
    · exact List.mem_cons_of_mem _ (ih h)
  | folder n inside rest _ ih =>
    rw [get?] at h
    split at h
    · next he => exact he ▸ List.mem_cons_self
    · exact List.mem_cons_of_mem _ (ih h)

lemma get?_eq_none (h : name ∉ l.names) : l.get? name = none := by
  rw [← Option.not_isSome_iff_eq_none, Option.isSome_iff_exists]
  rintro ⟨e, he⟩
  exact h (mem_names_of_get? he)

namespace Proper

lemma name_of_get? {e : Entry} (h : l.Proper) (hg : l.get? name = some e) : '/' ∉ name.toList := by
  induction h with
  | empty => cases hg
  | file hn hd hr ih =>
    rw [get?] at hg
    split at hg
    · next he => exact he ▸ hn
    · exact ih hg
  | folder hn hd hi hr _ ih =>
    rw [get?] at hg
    split at hg
    · next he => exact he ▸ hn
    · exact ih hg

lemma folder_of_get? (h : l.Proper) (hg : l.get? name = some (.folder inside)) : inside.Proper := by
  induction h with
  | empty => cases hg
  | file hn hd hr ih =>
    rw [get?] at hg
    split at hg
    · cases hg
    · exact ih hg
  | folder hn hd hi hr _ ih =>
    rw [get?] at hg
    split at hg
    · cases hg
      exact hi
    · exact ih hg

lemma mem_files_iff (h : l.Proper) {text : Option String} :
    (name, text) ∈ l.files ↔ l.get? name = some (.file text) := by
  induction h with
  | empty => simp [files, get?]
  | @file n t rest hn hd hr ih =>
    rw [files, get?, List.mem_cons, ih]
    by_cases hname : n = name
    · subst hname
      simp [get?_eq_none hd, eq_comm]
    · simp [hname, Ne.symm hname]
  | @folder n i rest hn hd hi hr _ ih =>
    rw [files, get?, ih]
    by_cases hname : n = name
    · subst hname
      simp [get?_eq_none hd]
    · simp [hname]

lemma nodup_files (h : l.Proper) : (l.files.map Prod.fst).Nodup := by
  have hsub (l : Listing) : ∀ name ∈ l.files.map Prod.fst, name ∈ l.names := by
    induction l with
    | empty => simp [files]
    | file n text rest ih =>
      simp only [files, names, List.map_cons, List.mem_cons]
      exact fun name hn => hn.imp_right (ih name)
    | folder n inside rest _ ih => exact fun name hn => List.mem_cons_of_mem _ (ih name hn)
  induction h with
  | empty => exact List.nodup_nil
  | file hn hd hr ih => exact List.nodup_cons.2 ⟨fun hm => hd (hsub _ _ hm), ih⟩
  | folder hn hd hi hr _ ih => exact ih

lemma folderAt {way : List String} (h : l.Proper) (hf : l.folderAt way = some inside) :
    inside.Proper ∧ ∀ name ∈ way, '/' ∉ name.toList := by
  induction way generalizing l with
  | nil => exact ⟨Option.some.inj hf ▸ h, by simp⟩
  | cons name way ih =>
    rw [Listing.folderAt] at hf
    split at hf
    · next k hg =>
      obtain ⟨hk, hway⟩ := ih (h.folder_of_get? hg) hf
      exact ⟨hk, List.forall_mem_cons.2 ⟨h.name_of_get? hg, hway⟩⟩
    · cases hf

end Proper

end Listing

namespace Path

variable {as bs cs : List (List Char)}

lemma intercalate_cons_cons (sep a b : List Char) :
    sep.intercalate (a :: b :: cs) = a ++ (sep ++ sep.intercalate (b :: cs)) := by
  simp [List.intercalate]

lemma intercalate_left_cancel {sep : List Char} (hb : bs ≠ []) (hc : cs ≠ [])
    (h : sep.intercalate (as ++ bs) = sep.intercalate (as ++ cs)) :
    sep.intercalate bs = sep.intercalate cs := by
  induction as with
  | nil => exact h
  | cons a as ih =>
    apply ih
    obtain ⟨b, bs', hbs⟩ := List.exists_cons_of_ne_nil (l := as ++ bs) (by simp [hb])
    obtain ⟨c, cs', hcs⟩ := List.exists_cons_of_ne_nil (l := as ++ cs) (by simp [hc])
    rw [List.cons_append, List.cons_append, hbs, hcs, intercalate_cons_cons, intercalate_cons_cons] at h
    rw [hbs, hcs]
    exact List.append_cancel_left (List.append_cancel_left h)

lemma below_text_inj {p : Path} {as bs : List String} (ha : as ≠ []) (hb : bs ≠ [])
    (has : ∀ name ∈ as, '/' ∉ name.toList) (hbs : ∀ name ∈ bs, '/' ∉ name.toList)
    (h : (p.below as).text = (p.below bs).text) : as = bs := by
  have htext {cs : List String} (hc : cs ≠ []) :
      (p.below cs).text = p.root ++ "/".intercalate (p.parts ++ cs) := by
    simp [text, below, hc]
  have hsplit {cs : List String} (hc : cs ≠ []) (hcs : ∀ name ∈ cs, '/' ∉ name.toList) :
      List.splitOn '/' (['/'].intercalate (cs.map String.toList)) = cs.map String.toList :=
    List.splitOn_intercalate '/' (List.forall_mem_map.2 hcs) (by simpa using hc)
  rw [htext ha, htext hb] at h
  have h := congrArg String.toList h
  rw [String.toList_append, String.toList_append, String.toList_intercalate,
    String.toList_intercalate, List.map_append, List.map_append] at h
  have h := intercalate_left_cancel (by simpa using ha) (by simpa using hb)
    (List.append_cancel_left h)
  have hm : as.map String.toList = bs.map String.toList := by
    rw [← hsplit ha has, ← hsplit hb hbs]
    exact congrArg (List.splitOn '/') h
  exact List.map_injective_iff.2 (fun _ _ => String.toList_inj.1) hm

lemma suffix_of_slash {pre name suffix : List Char} (hs : '/' ∉ suffix)
    (hp : pre = [] ∨ ∃ as, pre = as ++ ['/']) : suffix <:+ pre ++ name ↔ suffix <:+ name := by
  refine ⟨fun h => ?_, fun h => h.trans (List.suffix_append _ _)⟩
  obtain h' | ⟨as, rfl⟩ := List.suffix_or_suffix_of_suffix h (List.suffix_append pre name)
  · exact h'
  · -- What stands before the name would end in a slash.
    have has : as <:+ pre := List.suffix_append_self_iff.1 h
    suffices as = [] by simp [this]
    rcases hp with rfl | ⟨bs, rfl⟩
    · exact List.suffix_nil.1 has
    · rcases List.suffix_concat_iff.1 has with he | ⟨cs, rfl, _⟩
      · exact he
      · simp at hs

lemma rootOf_cases (cs : List Char) : rootOf cs = "" ∨ rootOf cs = "/" ∨ rootOf cs = "//" := by
  unfold rootOf
  split <;> simp

lemma intercalate_concat (sep : List Char) (name : List Char) :
    sep.intercalate (as ++ [name]) = (if as = [] then [] else sep.intercalate as ++ sep) ++ name := by
  induction as with
  | nil => simp [List.intercalate]
  | cons a as ih =>
    cases as with
    | nil => simp [List.intercalate]
    | cons b as =>
      rw [List.cons_append, List.cons_append, intercalate_cons_cons, ← List.cons_append, ih]
      simp

lemma endsWith_child {s name suffix : String} {way : List String} (hs : '/' ∉ suffix.toList) :
    Text.endsWith (((ofString s).below way).child name).text suffix = Text.endsWith name suffix := by
  have htext : (((ofString s).below way).child name).text =
      rootOf s.toList ++ "/".intercalate ((ofString s).parts ++ way ++ [name]) := by
    simp [text, below, child, ofString]
  rw [Bool.eq_iff_iff, Text.endsWith_iff, Text.endsWith_iff, htext, String.toList_append,
    String.toList_intercalate, List.map_append, List.map_cons, List.map_nil, intercalate_concat,
    ← List.append_assoc]
  apply suffix_of_slash hs
  split
  · rcases rootOf_cases s.toList with h | h | h
    · exact .inl (by simp [h])
    · exact .inr ⟨[], by simp [h]⟩
    · exact .inr ⟨['/'], by simp [h]⟩
  · exact .inr ⟨_, by rw [← List.append_assoc]; rfl⟩

end Path

namespace Module

variable {l : Listing} {way : List String}

def subdirs (way : List String) (l : Listing) : List (List String × Listing) :=
  (foldersBelow way l).flatMap (·.2)

lemma subdirs_perm (way : List String) (l : Listing) :
    (((foldersBelow way l).mergeSort fun a b => decide (a.1 ≤ b.1)).flatMap (·.2)).Perm
      (subdirs way l) :=
  (List.mergeSort_perm _ _).flatMap_right _

lemma subdirs_skipped {name : String} {inside rest : Listing} (h : isSkipped name = true) :
    subdirs way (.folder name inside rest) = subdirs way rest := by
  rw [subdirs, foldersBelow, if_pos h, subdirs]

lemma subdirs_folder {name : String} {inside rest : Listing} (h : isSkipped name = false) :
    (subdirs way (.folder name inside rest)).Perm
      ((way ++ [name], inside) :: subdirs (way ++ [name]) inside ++ subdirs way rest) := by
  rw [subdirs, foldersBelow, if_neg (by simp [h]), List.flatMap_cons]
  exact ((subdirs_perm _ inside).cons _).append_right _

lemma mem_subdirs_iff (h : l.Proper) {w : List String} {k : Listing} :
    (w, k) ∈ subdirs way l ↔ ∃ name rest, w = way ++ name :: rest ∧
      (∀ part ∈ name :: rest, isSkipped part = false) ∧ l.folderAt (name :: rest) = some k := by
  induction h generalizing way with
  | empty => simp [subdirs, foldersBelow, Listing.folderAt, Listing.get?]
  | @file n t rest hn hd hr ih =>
    have hat (name : String) (ws : List String) :
        (Listing.file n t rest).folderAt (name :: ws) = rest.folderAt (name :: ws) := by
      by_cases hname : n = name
      · subst hname
        simp [Listing.folderAt, Listing.get?, Listing.get?_eq_none hd]
      · simp [Listing.folderAt, Listing.get?, hname]
    simp only [hat]
    exact ih
  | @folder n inside rest hn hd hi hr ihi ih =>
    have hself (ws : List String) :
        (Listing.folder n inside rest).folderAt (n :: ws) = inside.folderAt ws := by
      simp [Listing.folderAt, Listing.get?]
    have hother {name : String} (ws : List String) (hname : n ≠ name) :
        (Listing.folder n inside rest).folderAt (name :: ws) = rest.folderAt (name :: ws) := by
      simp [Listing.folderAt, Listing.get?, hname]
    have hrest : (w, k) ∈ subdirs way rest ↔ ∃ name ws, n ≠ name ∧ w = way ++ name :: ws ∧
        (∀ part ∈ name :: ws, isSkipped part = false) ∧
        (Listing.folder n inside rest).folderAt (name :: ws) = some k := by
      rw [ih]
      constructor
      · rintro ⟨name, ws, hw, hs, hk⟩
        have hname : n ≠ name := by
          rintro rfl
          simp [Listing.folderAt, Listing.get?_eq_none hd] at hk
        exact ⟨name, ws, hname, hw, hs, (hother ws hname).trans hk⟩
      · rintro ⟨name, ws, hname, hw, hs, hk⟩
        exact ⟨name, ws, hw, hs, (hother ws hname).symm.trans hk⟩
    cases hskip : isSkipped n with
    | true =>
      rw [subdirs_skipped hskip, hrest]
      constructor
      · rintro ⟨name, ws, _, h⟩
        exact ⟨name, ws, h⟩
      · rintro ⟨name, ws, hw, hs, hk⟩
        refine ⟨name, ws, ?_, hw, hs, hk⟩
        rintro rfl
        simp [hskip] at hs
    | false =>
      rw [(subdirs_folder hskip).mem_iff, List.mem_append, hrest, List.mem_cons, ihi]
      constructor
      · rintro ((he | ⟨name, ws, hw, hs, hk⟩) | ⟨name, ws, _, h⟩)
        · obtain ⟨rfl, rfl⟩ := Prod.mk.inj he
          exact ⟨n, [], rfl, by simpa using hskip, hself []⟩
        · refine ⟨n, name :: ws, by simp [hw], ?_, (hself _).trans hk⟩
          exact List.forall_mem_cons.2 ⟨hskip, hs⟩
        · exact ⟨name, ws, h⟩
      · rintro ⟨name, ws, hw, hs, hk⟩
        by_cases hname : n = name
        · subst hname
          rw [hself] at hk
          cases ws with
          | nil => exact .inl (.inl (by rw [hw, Option.some.inj hk]))
          | cons v vs =>
            refine .inl (.inr ⟨v, vs, by simp [hw], ?_, hk⟩)
            exact fun part hpart => hs part (by simp_all)
        · exact .inr ⟨name, ws, hname, hw, hs, hk⟩

lemma nodup_subdirs (h : l.Proper) : ((subdirs way l).map Prod.fst).Nodup := by
  induction h generalizing way with
  | empty => exact List.nodup_nil
  | file hn hd hr ih => exact ih
  | @folder n inside rest hn hd hi hr ihi ih =>
    cases hskip : isSkipped n with
    | true =>
      rw [subdirs_skipped hskip]
      exact ih
    | false =>
      rw [((subdirs_folder hskip).map Prod.fst).nodup_iff, List.map_append, List.map_cons]
      have hin {w : List String} (hw : w ∈ (subdirs (way ++ [n]) inside).map Prod.fst) :
          ∃ name ws, w = way ++ n :: name :: ws := by
        obtain ⟨⟨w, k⟩, hmem, rfl⟩ := List.mem_map.1 hw
        obtain ⟨name, ws, rfl, _⟩ := (mem_subdirs_iff hi).1 hmem
        exact ⟨name, ws, by simp⟩
      have hout {w : List String} (hw : w ∈ (subdirs way rest).map Prod.fst) :
          ∃ name ws, w = way ++ name :: ws ∧ n ≠ name := by
        obtain ⟨⟨w, k⟩, hmem, rfl⟩ := List.mem_map.1 hw
        obtain ⟨name, ws, rfl, _, hk⟩ := (mem_subdirs_iff hr).1 hmem
        refine ⟨name, ws, rfl, ?_⟩
        rintro rfl
        simp [Listing.folderAt, Listing.get?_eq_none hd] at hk
      refine List.nodup_append.2 ⟨List.nodup_cons.2 ⟨?_, ihi⟩, ih, ?_⟩
      · intro hw
        obtain ⟨name, ws, he⟩ := hin hw
        simp at he
      · rintro w hw v hv rfl
        obtain ⟨name, ws, rfl, hne⟩ := hout hv
        rcases List.mem_cons.1 hw with he | hw
        · simp at he
          exact hne he.1.symm
        · obtain ⟨name', ws', he⟩ := hin hw
          simp at he
          exact hne he.1.symm

def IsPackageWay (c : Config) (way : List String) : Prop :=
  way = [] ∨ c.recursive = true ∧ ∀ part ∈ way, isSkipped part = false

lemma mem_packageDirs_iff {c : Config} (h : l.Proper) {k : Listing} :
    (way, k) ∈ packageDirs c l ↔ IsPackageWay c way ∧ l.folderAt way = some k := by
  have hroot : (way, k) = ([], l) ↔ way = [] ∧ l.folderAt way = some k := by
    rw [Prod.mk.injEq]
    constructor
    · rintro ⟨rfl, rfl⟩
      exact ⟨rfl, rfl⟩
    · rintro ⟨rfl, hk⟩
      exact ⟨rfl, (Option.some.inj hk).symm⟩
  rw [packageDirs, List.mem_cons, hroot, IsPackageWay, or_and_right]
  cases hr : c.recursive with
  | false => simp
  | true =>
    rw [if_pos rfl, (subdirs_perm [] l).mem_iff, mem_subdirs_iff h]
    constructor
    · rintro (hw | ⟨name, rest, rfl, hs, hk⟩)
      · exact .inl hw
      · exact .inr ⟨⟨rfl, hs⟩, hk⟩
    · rintro (hw | ⟨⟨_, hs⟩, hk⟩)
      · exact .inl hw
      · cases way with
        | nil => exact .inl ⟨rfl, hk⟩
        | cons name rest => exact .inr ⟨name, rest, rfl, hs, hk⟩

lemma nodup_packageDirs (c : Config) (h : l.Proper) : ((packageDirs c l).map Prod.fst).Nodup := by
  rw [packageDirs, List.map_cons]
  split
  · rw [(((subdirs_perm [] l).map Prod.fst).cons []).nodup_iff]
    refine List.nodup_cons.2 ⟨fun hw => ?_, nodup_subdirs h⟩
    obtain ⟨⟨w, k⟩, hmem, hw⟩ := List.mem_map.1 hw
    obtain ⟨name, rest, rfl, _⟩ := (mem_subdirs_iff h).1 hmem
    cases hw
  · simp

end Module

end ParallelTests
