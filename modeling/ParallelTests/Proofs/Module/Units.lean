import ParallelTests.Proofs.Module.Tree
import ParallelTests.Proofs.Result

namespace ParallelTests

lemma TokenStream.source_of_ofSource {src : Source} {s : TokenStream} (h : ofSource src = .ok s) :
    s.source = src := by
  unfold ofSource at h
  split at h
  · cases h
  · dsimp only at h
    split at h
    · cases h
    · obtain rfl := Except.ok.inj h
      rfl

lemma Parser.filePath_of_stream {s : TokenStream} {p : Placed} (h : stream s = .ok p) :
    p.node.filePath = s.source.path := by
  unfold stream at h
  split at h
  · cases h
  · split at h
    · split at h
      · cases h
      · obtain ⟨package, _, h⟩ := Except.bind_eq_ok_iff.1 h
        obtain ⟨ps, _, h⟩ := Except.bind_eq_ok_iff.1 h
        obtain rfl := Except.pure_eq_ok_iff.1 h
        rfl
    · cases h
  · cases h

lemma Source.filePath_of_parse {src : Source} {f : Node} (h : src.parse = .ok f) :
    f.filePath = src.path := by
  obtain ⟨s, hs, h⟩ := Except.bind_eq_ok_iff.1 (Except.mapError_eq_ok_iff.1 h)
  obtain ⟨p, hp, h⟩ := Except.bind_eq_ok_iff.1 h
  obtain rfl := Except.pure_eq_ok_iff.1 h
  rw [Parser.filePath_of_stream hp, TokenStream.source_of_ofSource hs]

namespace CompilationUnit

structure Outline where
  id : String
  pkgPath : String
  paths : List String
  deriving DecidableEq

def paths (u : CompilationUnit) : List String := u.files.map Node.filePath

def outline (u : CompilationUnit) : Outline := ⟨u.id, u.pkgPath, u.paths⟩

variable {c : Config} {d : Path} {id pkg : String} {l : Listing} {files : List GoFile} {g : GoFile}

lemma build_outline {o : Option CompilationUnit} (h : build id pkg files = .ok o) :
    o.toList.map outline = [(⟨id, pkg, files.map (·.source.path)⟩ : Outline)].filter (·.paths ≠ []) ∧
      ∀ u ∈ o, ∀ f ∈ u.files, ∃ g ∈ files, g.source.parse = .ok f := by
  unfold build at h
  split at h
  · obtain rfl := Except.ok.inj h
    exact ⟨rfl, by simp⟩
  · next first rest =>
    obtain ⟨trees, htrees, h⟩ := Except.bind_eq_ok_iff.1 h
    obtain ⟨types, _, h⟩ := Except.bind_eq_ok_iff.1 h
    obtain rfl := Except.pure_eq_ok_iff.1 h
    have hpaths : trees.map Node.filePath = (first :: rest).map (·.source.path) := by
      rw [← List.forall₂_eq_eq_eq, List.forall₂_map_left_iff, List.forall₂_map_right_iff]
      refine ((Except.forall₂_of_mapM htrees).imp fun g f hf => ?_).flip
      exact Source.filePath_of_parse (Except.mapError_eq_ok_iff.1 hf)
    constructor
    · simp [outline, paths, hpaths]
    · rintro _ ⟨⟩ f hf
      refine Except.forall_of_mapM (P := fun f => ∃ g ∈ first :: rest, g.source.parse = .ok f) htrees
        (fun g hg f hf => ?_) f hf
      exact ⟨g, hg, Except.mapError_eq_ok_iff.1 hf⟩

def groups (pkg : String) (files : List GoFile) : List Outline :=
  let paths (gs : List GoFile) := gs.map (·.source.path)
  let plain := files.filter (!·.isTest)
  let internal := files.filter GoFile.isInternal
  [⟨pkg, pkg, paths plain⟩,
    ⟨testId pkg, pkg, paths (if internal.isEmpty then [] else plain ++ internal)⟩,
    ⟨externalId pkg, externalPath pkg, paths (files.filter GoFile.isExternal)⟩]

def outlines (pkg : String) (files : List GoFile) : List Outline :=
  (groups pkg files).filter (·.paths ≠ [])

lemma outline_of_ofPackage {us : List CompilationUnit} (h : ofPackage c d pkg l = .ok us) :
    ∃ files, (GoFile.entries l).mapM (GoFile.read c d) = .ok files ∧
      us.map outline = outlines pkg files ∧
      ∀ u ∈ us, ∀ f ∈ u.files, ∃ g ∈ files, g.source.parse = .ok f := by
  unfold ofPackage at h
  obtain ⟨files, hfiles, h⟩ := Except.bind_eq_ok_iff.1 h
  obtain ⟨_, _, h⟩ := Except.bind_eq_ok_iff.1 h
  obtain ⟨_, _, h⟩ := Except.bind_eq_ok_iff.1 h
  obtain ⟨first, hfirst, h⟩ := Except.bind_eq_ok_iff.1 h
  obtain ⟨second, hsecond, h⟩ := Except.bind_eq_ok_iff.1 h
  obtain ⟨third, hthird, h⟩ := Except.bind_eq_ok_iff.1 h
  obtain rfl := Except.pure_eq_ok_iff.1 h
  obtain ⟨hfirst, hplain⟩ := build_outline hfirst
  obtain ⟨hsecond, htest⟩ := build_outline hsecond
  obtain ⟨hthird, hexternal⟩ := build_outline hthird
  refine ⟨files, hfiles, ?_, ?_⟩
  · rw [List.map_append, List.map_append, hfirst, hsecond, hthird, ← List.filter_append,
      ← List.filter_append]
    rfl
  · intro u hu f hf
    simp only [List.mem_append, Option.mem_toList] at hu
    rcases hu with (hu | hu) | hu
    · obtain ⟨g, hg, hparse⟩ := hplain u hu f hf
      exact ⟨g, (List.mem_filter.1 hg).1, hparse⟩
    · obtain ⟨g, hg, hparse⟩ := htest u hu f hf
      split at hg
      · cases hg
      · obtain hg | hg := List.mem_append.1 hg
        · exact ⟨g, (List.mem_filter.1 hg).1, hparse⟩
        · exact ⟨g, (List.mem_filter.1 hg).1, hparse⟩
    · obtain ⟨g, hg, hparse⟩ := hexternal u hu f hf
      exact ⟨g, (List.mem_filter.1 hg).1, hparse⟩

lemma filter_outlines (pkg : String) (hn : (files.map (·.source.path)).Nodup) (hg : g ∈ files) :
    ((outlines pkg files).filter (g.source.path ∈ ·.paths)).map (·.id) =
      if g.isExternal then [externalId pkg]
      else if g.isInternal then [testId pkg]
      else pkg :: if files.any GoFile.isInternal then [testId pkg] else [] := by
  have hmem (q : GoFile → Bool) : g.source.path ∈ (files.filter q).map (·.source.path) ↔ q g = true := by
    constructor
    · intro h
      obtain ⟨g', hg', he⟩ := List.mem_map.1 h
      obtain ⟨hg', hq⟩ := List.mem_filter.1 hg'
      exact List.inj_on_of_nodup_map hn hg' hg he ▸ hq
    · exact fun hq => List.mem_map_of_mem (List.mem_filter.2 ⟨hg, hq⟩)
  have hall : (outlines pkg files).filter (g.source.path ∈ ·.paths) =
      (groups pkg files).filter (g.source.path ∈ ·.paths) := by
    rw [outlines, List.filter_filter]
    congr 1
    funext o
    by_cases ho : g.source.path ∈ o.paths
    · simp [ho, List.ne_nil_of_mem ho]
    · simp [ho]
  have htest : g.source.path ∈ (if (files.filter GoFile.isInternal).isEmpty then []
      else files.filter (!·.isTest) ++ files.filter GoFile.isInternal).map (·.source.path) ↔
      files.any GoFile.isInternal = true ∧ (g.isTest = false ∨ g.isInternal = true) := by
    split
    · next he =>
      have : files.any GoFile.isInternal = false := by simpa using he
      simp [this]
    · next he =>
      have : files.any GoFile.isInternal = true := by simpa using he
      rw [List.map_append, List.mem_append, hmem, hmem]
      simp [this]
  have hany (h : g.isInternal = true) : files.any GoFile.isInternal = true :=
    List.any_eq_true.2 ⟨g, hg, h⟩
  rw [hall, groups]
  simp only [List.filter_cons, List.filter_nil, hmem, htest, decide_eq_true_eq]
  have hkinds : (g.isTest = false ∧ g.isInternal = false ∧ g.isExternal = false) ∨
      (g.isTest = true ∧ g.isInternal = true ∧ g.isExternal = false) ∨
      (g.isTest = true ∧ g.isInternal = false ∧ g.isExternal = true) := by
    simp only [GoFile.isInternal, GoFile.isExternal]
    cases g.isTest <;> cases Text.endsWith g.package "_test" <;> simp
  rcases hkinds with ⟨h₁, h₂, h₃⟩ | ⟨h₁, h₂, h₃⟩ | ⟨h₁, h₂, h₃⟩
  · cases files.any GoFile.isInternal <;> simp [h₁, h₂, h₃]
  · simp [h₁, h₂, h₃, hany h₂]
  · simp [h₁, h₂, h₃]

lemma nodup_paths (hn : (files.map (·.source.path)).Nodup) {o : Outline} (ho : o ∈ outlines pkg files) :
    o.paths.Nodup := by
  have hsub (q : GoFile → Bool) : ((files.filter q).map (·.source.path)).Nodup :=
    hn.sublist (List.filter_sublist.map _)
  have hboth : ((files.filter (!·.isTest) ++ files.filter GoFile.isInternal).map
      (·.source.path)).Nodup := by
    rw [List.map_append]
    refine List.nodup_append.2 ⟨hsub _, hsub _, ?_⟩
    rintro _ hp _ hq rfl
    obtain ⟨g, hg, rfl⟩ := List.mem_map.1 hp
    obtain ⟨g', hg', he⟩ := List.mem_map.1 hq
    rw [List.mem_filter] at hg hg'
    obtain rfl := List.inj_on_of_nodup_map hn hg'.1 hg.1 he
    simp [GoFile.isInternal] at hg hg'
    simp [hg.2] at hg'
  have ho := (List.mem_filter.1 ho).1
  simp only [groups, List.mem_cons, List.not_mem_nil, or_false] at ho
  rcases ho with rfl | rfl | rfl
  · exact hsub _
  · dsimp only
    split
    · simp
    · exact hboth
  · exact hsub _

end CompilationUnit

namespace Logged

variable {ε α β : Type}

lemma result_bind (x : Logged ε α) (f : α → Logged ε β) :
    (x >>= f).result = x.result >>= fun a => (f a).result := by
  cases h : x.result with
  | error e => rw [bind_of_error h]; rfl
  | ok a => rw [bind_of_ok h]; rfl

lemma result_mapM (f : α → Logged ε β) (xs : List α) :
    (xs.mapM f).result = xs.mapM fun x => (f x).result := by
  have hloop (acc : List β) : (List.mapM.loop f xs acc).result =
      List.mapM.loop (fun x => (f x).result) xs acc := by
    induction xs generalizing acc with
    | nil => rfl
    | cons x xs ih =>
      rw [List.mapM.loop, List.mapM.loop, result_bind]
      simp only [ih]
  exact hloop []

end Logged

namespace Module

open CompilationUnit

variable {fs : FileSystem} {c : Config} {log : Log.Logger} {dir : Path} {inside : Listing}
  {units : List CompilationUnit}

lemma of_load (hdir : fs.find dir = .directory inside) (h : (load fs c log dir).result = .ok units) :
    ∃ module uss, (path fs log dir).result = .ok module ∧ units = uss.flatten ∧
      List.Forall₂ (fun d us => ofPackage c (dir.below d.1) (pkgPath module d.1) d.2 = .ok us)
        (packageDirs c inside) uss := by
  rw [load, hdir] at h
  dsimp only at h
  rw [Logged.result_bind] at h
  obtain ⟨module, hmodule, h⟩ := Except.bind_eq_ok_iff.1 h
  rw [Logged.result_bind, Logged.result_mapM] at h
  obtain ⟨uss, huss, h⟩ := Except.bind_eq_ok_iff.1 h
  refine ⟨module, uss, hmodule, ?_, (Except.forall₂_of_mapM huss).imp fun d us hd => ?_⟩
  · split at h
    · cases h
    · next us _ _ => exact (Except.ok.inj h).symm
  · simp only [loadPackage, Logged.result_bind] at hd
    obtain ⟨us', hus, hd⟩ := Except.bind_eq_ok_iff.1 hd
    obtain ⟨_, _, hd⟩ := Except.bind_eq_ok_iff.1 hd
    rwa [← Except.ok.inj hd]

end Module

end ParallelTests
