import ParallelTests.Proofs.Module.Units
import ParallelTests.Proofs.Run.Visits

/-!
Which files a run works on. Every test file of a module is in one unit of those that are worked on,
and it is visited, written and reported once.
-/

namespace ParallelTests

open CompilationUnit

variable {c : Config} {d : Path} {l : Listing} {files : List GoFile} {g : GoFile}

namespace GoFile

lemma of_read {e : String × Option String} (h : read c d e = .ok g) :
    ∃ text, e.2 = some text ∧ g.source = .ofString (d.child e.1).text (readText text) ∧
      g.isTest = Text.endsWith e.1 c.testFileSuffix := by
  unfold read at h
  dsimp only at h
  split at h
  · cases h
  · next text he =>
    obtain ⟨package, _, h⟩ := Except.bind_eq_ok_iff.1 h
    obtain rfl := Except.pure_eq_ok_iff.1 h
    exact ⟨text, he, rfl, rfl⟩

lemma mem_entries_iff (h : l.Proper) {name : String} {text : Option String} :
    (name, text) ∈ entries l ↔ isName name = true ∧ l.get? name = some (.file text) := by
  rw [entries, List.mem_mergeSort, List.mem_filter, h.mem_files_iff, and_comm]

lemma nodup_paths (h : l.Proper) (hr : (entries l).mapM (read c d) = .ok files) :
    (files.map (·.source.path)).Nodup := by
  have hpaths : files.map (·.source.path) = (entries l).map fun e => (d.child e.1).text := by
    rw [← List.forall₂_eq_eq_eq, List.forall₂_map_left_iff, List.forall₂_map_right_iff]
    refine ((Except.forall₂_of_mapM hr).imp fun e g he => ?_).flip
    obtain ⟨text, _, hsource, _⟩ := of_read he
    exact congrArg Source.path hsource
  have hnames : ((entries l).map Prod.fst).Nodup := by
    rw [entries, ((List.mergeSort_perm _ _).map Prod.fst).nodup_iff]
    exact h.nodup_files.sublist (List.filter_sublist.map _)
  rw [hpaths]
  refine (List.nodup_map_iff_inj_on hnames.of_map).2 fun e he e' he' h' => ?_
  have hslash {e : String × Option String} (he : e ∈ entries l) : ∀ name ∈ [e.1], '/' ∉ name.toList :=
    List.forall_mem_singleton.2 (h.name_of_get? ((mem_entries_iff h).1 he).2)
  have hname := Path.below_text_inj (p := d) (by simp) (by simp) (hslash he) (hslash he') h'
  exact List.inj_on_of_nodup_map hnames he he' (List.singleton_injective hname)

def hasInternal (c : Config) (d : Path) (l : Listing) : Bool :=
  (entries l).any fun e => (read c d e).toOption.any isInternal

lemma any_isInternal (hr : (entries l).mapM (read c d) = .ok files) :
    files.any isInternal = hasInternal c d l := by
  rw [hasInternal, Bool.eq_iff_iff, List.any_eq_true, List.any_eq_true]
  constructor
  · rintro ⟨g, hg, hi⟩
    obtain ⟨e, he, hread⟩ := Except.forall_of_mapM
      (P := fun g => ∃ e ∈ entries l, read c d e = .ok g) hr (fun e he g hg => ⟨e, he, hg⟩) g hg
    exact ⟨e, he, by simpa [hread, Except.toOption] using hi⟩
  · rintro ⟨e, he, hi⟩
    obtain ⟨g, hg, hread⟩ := Except.exists_of_mem_mapM hr he
    exact ⟨g, hg, by simpa [hread, Except.toOption] using hi⟩

end GoFile

namespace Module

def filePath (dir : Path) (way : List String) (name : String) : String :=
  ((dir.below way).child name).text

structure Eligible (c : Config) (inside : Listing) (way : List String) (name : String)
    (text : Option String) : Prop where
  isPackageWay : IsPackageWay c way
  isName : GoFile.isName name = true
  file : ∃ l, inside.folderAt way = some l ∧ l.get? name = some (.file text)

lemma filePath_inj {dir : Path} {inside : Listing} {way way' : List String} {name name' : String}
    {text text' : Option String} (hp : inside.Proper) (h : Eligible c inside way name text)
    (h' : Eligible c inside way' name' text') (he : filePath dir way name = filePath dir way' name') :
    way = way' ∧ name = name' := by
  have hslash {way : List String} {name : String} {text : Option String}
      (h : Eligible c inside way name text) : ∀ part ∈ way ++ [name], '/' ∉ part.toList := by
    obtain ⟨l, hl, hg⟩ := h.file
    obtain ⟨hproper, hway⟩ := hp.folderAt hl
    exact List.forall_mem_append.2 ⟨hway, List.forall_mem_singleton.2 (hproper.name_of_get? hg)⟩
  have hbelow (way : List String) (name : String) :
      filePath dir way name = (dir.below (way ++ [name])).text := by
    simp [filePath, Path.below, Path.child]
  rw [hbelow, hbelow] at he
  have := Path.below_text_inj (by simp) (by simp) (hslash h) (hslash h') he
  simpa using List.append_inj' this rfl

section

variable {dir : Path} {inside : Listing} {module : String} {uss : List (List CompilationUnit)}

lemma filter_flatten_eq_nil {α β : Type} {R : α → List β → Prop} {P : β → Bool} {xs : List α}
    {yss : List (List β)} (h : List.Forall₂ R xs yss)
    (hnone : ∀ x ∈ xs, ∀ ys, R x ys → ys.filter P = []) : yss.flatten.filter P = [] := by
  induction h with
  | nil => rfl
  | cons hy _ ih =>
    rw [List.flatten_cons, List.filter_append, hnone _ (by simp) _ hy,
      ih fun x hx => hnone x (by simp [hx]), List.append_nil]

lemma filter_flatten {α β γ : Type} {R : α → List β → Prop} {f : α → γ} {P : β → Bool} {xs : List α}
    {yss : List (List β)} (h : List.Forall₂ R xs yss) (hn : (xs.map f).Nodup) {x : α} (hx : x ∈ xs)
    (hother : ∀ x' ∈ xs, f x' ≠ f x → ∀ ys, R x' ys → ys.filter P = []) :
    ∃ ys, R x ys ∧ yss.flatten.filter P = ys.filter P := by
  induction h with
  | nil => cases hx
  | @cons y ys xs yss hy hrest ih =>
    obtain ⟨hnew, hn⟩ := List.nodup_cons.1 hn
    have hne {z : α} (hz : z ∈ xs) : f z ≠ f y := fun he => hnew (he ▸ List.mem_map_of_mem hz)
    rw [List.flatten_cons, List.filter_append]
    obtain rfl | hx := List.mem_cons.1 hx
    · refine ⟨ys, hy, ?_⟩
      rw [filter_flatten_eq_nil hrest fun z hz => hother z (by simp [hz]) (hne hz), List.append_nil]
    · obtain ⟨zs, hzs, he⟩ := ih hn hx fun z hz => hother z (by simp [hz])
      refine ⟨zs, hzs, ?_⟩
      rw [hother y (by simp) (hne hx).symm ys hy, he, List.nil_append]

abbrev Loaded (c : Config) (dir : Path) (module : String) (inside : Listing)
    (uss : List (List CompilationUnit)) : Prop :=
  List.Forall₂ (fun d us => ofPackage c (dir.below d.1) (pkgPath module d.1) d.2 = .ok us)
    (packageDirs c inside) uss

lemma eligible_of_ofPackage (hp : inside.Proper) {way : List String} {pkg : String}
    {us : List CompilationUnit} (hd : (way, l) ∈ packageDirs c inside)
    (h : ofPackage c (dir.below way) pkg l = .ok us) {u : CompilationUnit} (hu : u ∈ us) {f : Node}
    (hf : f ∈ u.files) : ∃ name text, Eligible c inside way name (some text) ∧
      (Source.ofString (filePath dir way name) (readText text)).parse = .ok f := by
  obtain ⟨hway, hat⟩ := (mem_packageDirs_iff hp).1 hd
  obtain ⟨files, hread, _, hall⟩ := outline_of_ofPackage h
  obtain ⟨g, hg, hparse⟩ := hall u hu f hf
  obtain ⟨⟨name, text⟩, he, hg⟩ := Except.forall_of_mapM
    (P := fun g => ∃ e ∈ GoFile.entries l, GoFile.read c (dir.below way) e = .ok g) hread
    (fun e he g hg => ⟨e, he, hg⟩) g hg
  obtain ⟨text, rfl, hsource, _⟩ := GoFile.of_read hg
  obtain ⟨hname, hget⟩ := (GoFile.mem_entries_iff (hp.folderAt hat).1).1 he
  exact ⟨name, text, ⟨hway, hname, l, hat, hget⟩, hsource ▸ hparse⟩

lemma filter_units (hp : inside.Proper) (h : Loaded c dir module inside uss) {way : List String}
    {name : String} {text : Option String} (he : Eligible c inside way name text) :
    ∃ l files g, inside.folderAt way = some l ∧
      (GoFile.entries l).mapM (GoFile.read c (dir.below way)) = .ok files ∧ g ∈ files ∧
      g.source.path = filePath dir way name ∧ g.isTest = Text.endsWith name c.testFileSuffix ∧
      (uss.flatten.filter (filePath dir way name ∈ ·.paths)).map outline =
        (outlines (pkgPath module way) files).filter (filePath dir way name ∈ ·.paths) := by
  obtain ⟨l, hat, hget⟩ := he.file
  have hd := (mem_packageDirs_iff hp).2 ⟨he.isPackageWay, hat⟩
  have hother : ∀ d ∈ packageDirs c inside, d.1 ≠ way → ∀ us : List CompilationUnit,
      ofPackage c (dir.below d.1) (pkgPath module d.1) d.2 = .ok us →
      us.filter (filePath dir way name ∈ ·.paths) = [] := by
    rintro ⟨way', l'⟩ hd' hne us hus
    rw [List.filter_eq_nil_iff]
    intro u hu hmem
    obtain ⟨f, hf, hpath⟩ := List.mem_map.1 (of_decide_eq_true hmem)
    obtain ⟨name', text', he', hparse⟩ := eligible_of_ofPackage hp hd' hus hu hf
    rw [Source.filePath_of_parse hparse] at hpath
    exact hne (filePath_inj hp he' he hpath).1
  obtain ⟨us, hus, hfilter⟩ := filter_flatten h (nodup_packageDirs c hp) hd hother
  obtain ⟨files, hread, houtline, _⟩ := outline_of_ofPackage hus
  obtain ⟨g, hg, hgread⟩ := Except.exists_of_mem_mapM hread
    ((GoFile.mem_entries_iff (hp.folderAt hat).1).2 ⟨he.isName, hget⟩)
  obtain ⟨text, _, hsource, htest⟩ := GoFile.of_read hgread
  refine ⟨l, files, g, hat, hread, hg, congrArg Source.path hsource, htest, ?_⟩
  rw [hfilter, ← houtline, List.filter_map]
  rfl

lemma exists_directory (h : Loaded c dir module inside uss) {u : CompilationUnit}
    (hu : u ∈ uss.flatten) : ∃ way l us, (way, l) ∈ packageDirs c inside ∧
      ofPackage c (dir.below way) (pkgPath module way) l = .ok us ∧ u ∈ us := by
  obtain ⟨us, hus, hu⟩ := List.mem_flatten.1 hu
  obtain ⟨i, hi, rfl⟩ := List.getElem_of_mem hus
  have hlen := h.length_eq
  exact ⟨_, _, _, List.getElem_mem (by omega), h.get (by omega) hi, hu⟩

lemma nodup_unit (hp : inside.Proper) (h : Loaded c dir module inside uss) {u : CompilationUnit}
    (hu : u ∈ uss.flatten) : u.paths.Nodup := by
  obtain ⟨way, l, us, hd, hus, hu⟩ := exists_directory h hu
  obtain ⟨files, hread, houtline, _⟩ := outline_of_ofPackage hus
  have hl := (hp.folderAt ((mem_packageDirs_iff hp).1 hd).2).1
  exact CompilationUnit.nodup_paths (GoFile.nodup_paths hl hread)
    (houtline ▸ List.mem_map_of_mem (f := outline) hu)

lemma ids_of_file (hp : inside.Proper) (h : Loaded c dir module inside uss) {way : List String}
    {name : String} {text : Option String} (he : Eligible c inside way name text)
    (hat : inside.folderAt way = some l) :
    ∃ g : GoFile, g.isTest = Text.endsWith name c.testFileSuffix ∧
      (uss.flatten.filter (filePath dir way name ∈ ·.paths)).map (·.id) =
        if g.isExternal then [externalId (pkgPath module way)]
        else if g.isInternal then [testId (pkgPath module way)]
        else pkgPath module way ::
          if GoFile.hasInternal c (dir.below way) l then [testId (pkgPath module way)] else [] := by
  obtain ⟨l', files, g, hat', hread, hg, hpath, htest, houtline⟩ := filter_units hp h he
  obtain rfl : l = l' := Option.some.inj (hat.symm.trans hat')
  refine ⟨g, htest, ?_⟩
  have hids := filter_outlines (pkgPath module way) (GoFile.nodup_paths (hp.folderAt hat).1 hread) hg
  rw [hpath, ← houtline, List.map_map, GoFile.any_isInternal hread] at hids
  exact hids

lemma endsWith_testId (pkg : String) : Text.endsWith (testId pkg) ".test]" = true := by
  rw [Text.endsWith_iff, testId, String.toList_append]
  exact List.suffix_append _ _

lemma endsWith_externalId (pkg : String) : Text.endsWith (externalId pkg) ".test]" = true := by
  rw [Text.endsWith_iff, externalId, String.toList_append]
  exact List.suffix_append _ _

lemma selected_of_test (hmarker : c.testUnitMarker = ".test]") (hp : inside.Proper)
    (h : Loaded c dir module inside uss) {way : List String} {name : String} {text : Option String}
    (he : Eligible c inside way name text) (ht : Text.endsWith name c.testFileSuffix = true) :
    ∃ u ∈ Dispatch.select c uss.flatten,
      uss.flatten.filter (filePath dir way name ∈ ·.paths) = [u] := by
  obtain ⟨l, hat, _⟩ := he.file
  obtain ⟨g, htest, hids⟩ := ids_of_file hp h he hat
  rw [ht] at htest
  obtain ⟨id, hid, hends⟩ : ∃ id, (uss.flatten.filter (filePath dir way name ∈ ·.paths)).map (·.id) =
      [id] ∧ Text.endsWith id c.testUnitMarker = true := by
    rw [hids, hmarker]
    split
    · exact ⟨_, rfl, endsWith_externalId _⟩
    · next hext =>
      have hint : g.isInternal = true := by simpa [GoFile.isExternal, GoFile.isInternal, htest] using hext
      exact ⟨_, if_pos hint, endsWith_testId _⟩
  obtain ⟨u, hu, rfl⟩ := List.map_eq_singleton_iff.1 hid
  have hmem : u ∈ uss.flatten := (List.mem_filter.1 (hu ▸ List.mem_singleton_self u)).1
  exact ⟨u, List.mem_filter.2 ⟨hmem, hends⟩, hu⟩

end

lemma filter_files {us : List CompilationUnit} {u : CompilationUnit} {path : String}
    (hu : us.filter (path ∈ ·.paths) = [u]) (hn : u.paths.Nodup) :
    ∃ f, (us.flatMap (·.files)).filter (·.filePath = path) = [f] := by
  have hnone {v : CompilationUnit} (hv : path ∉ v.paths) : v.files.filter (·.filePath = path) = [] := by
    rw [List.filter_eq_nil_iff]
    intro f hf he
    exact hv (of_decide_eq_true he ▸ List.mem_map_of_mem hf)
  have hall : (us.flatMap (·.files)).filter (·.filePath = path) =
      (us.filter (path ∈ ·.paths)).flatMap fun v => v.files.filter (·.filePath = path) := by
    rw [List.filter_flatMap]
    clear hu
    induction us with
    | nil => rfl
    | cons v us ih =>
      rw [List.flatMap_cons, ih, List.filter_cons]
      split
      · rw [List.flatMap_cons]
      · next hv => rw [hnone (by simpa using hv), List.nil_append]
  have hmem : path ∈ u.paths := by
    have : u ∈ us.filter (path ∈ ·.paths) := hu ▸ List.mem_singleton_self u
    exact of_decide_eq_true (List.mem_filter.1 this).2
  have hlength : (u.files.filter (·.filePath = path)).length = 1 := by
    rw [← List.count_eq_one_of_mem hn hmem, paths, List.count, List.countP_map, List.countP_eq_length_filter]
    congr 2
  rw [hall, hu, List.flatMap_cons, List.flatMap_nil, List.append_nil]
  exact List.length_eq_one_iff.1 hlength

lemma visited_once {log : Log.Logger} {us : List CompilationUnit} {writes : List String}
    {reports : List UnitReport} {vs : List Worker.Visit} {path : String}
    (h : Dispatch.Visits c log us writes reports vs)
    (ht : Text.endsWith path c.testFileSuffix = true)
    (hf : ∃ f, (us.flatMap (·.files)).filter (·.filePath = path) = [f]) :
    (∃ f written outcomes, vs.filter (·.1.filePath = path) = [(f, ⟨some written, some outcomes⟩)]) ∧
      (reports.flatMap (·.files)).count path = 1 := by
  obtain ⟨f, hf⟩ := hf
  rw [← h.files, List.filter_map] at hf
  obtain ⟨v, hv, rfl⟩ := List.map_eq_singleton_iff.1 hf
  have hv : vs.filter (·.1.filePath = path) = [v] := hv
  obtain ⟨hmem, hpath⟩ := List.mem_filter.1 (hv ▸ List.mem_singleton_self v)
  have hpath := of_decide_eq_true hpath
  obtain ⟨u, _, i, _, hvisit⟩ := h.visit v hmem
  have hdone := Worker.of_visit hvisit
  rw [if_pos (by rwa [Worker.isTestFile, hpath])] at hdone
  obtain ⟨written, outcomes, hdone⟩ := hdone
  refine ⟨⟨v.1, written, outcomes, by rw [hv, ← hdone]⟩, ?_⟩
  have hreport : (reports.flatMap (·.files)).filter (· == path) =
      (vs.filter (·.1.filePath = path)).filterMap fun v => v.2.outcomes.map fun _ => v.1.filePath := by
    rw [h.paths, List.filter_filterMap, List.filterMap_filter]
    congr 1
    funext w
    by_cases hw : w.1.filePath = path <;> cases w.2.outcomes <;> simp [hw]
  rw [List.count_eq_length_filter, hreport, hv]
  simp [hdone]

/-- How the units of a module hold its files, and what a run over them does to the test files. -/
structure Covers (c : Config) (log : Log.Logger) (dir : Path) (module : String) (inside : Listing)
    (units : List CompilationUnit) : Prop where
  /-- A test file is in one unit, and that unit is worked on. -/
  test : ∀ way name text, Eligible c inside way name text →
    Text.endsWith name c.testFileSuffix = true →
    ∃ u ∈ Dispatch.select c units, units.filter (filePath dir way name ∈ ·.paths) = [u]
  /-- Another file is in the plain unit of its directory, and in the one for the tests inside the
  package if there are such tests. -/
  plain : ∀ way name text l, Eligible c inside way name text →
    Text.endsWith name c.testFileSuffix = false → inside.folderAt way = some l →
    (units.filter (filePath dir way name ∈ ·.paths)).map (·.id) = pkgPath module way ::
      if GoFile.hasInternal c (dir.below way) l then [testId (pkgPath module way)] else []
  nodup : ∀ u ∈ units, u.paths.Nodup
  only : ∀ u ∈ units, ∀ f ∈ u.files, ∃ way name text, Eligible c inside way name (some text) ∧
    (Source.ofString (filePath dir way name) (readText text)).parse = .ok f
  select : ∀ u ∈ Dispatch.select c units, u.id ≠ u.pkgPath
  /-- A run visits a test file once, which writes its text and reports it. -/
  run : ∀ reports, (Dispatch.run c log units).result = .ok reports →
    ∃ vs, Dispatch.Visits c log (Dispatch.select c units) (Dispatch.run c log units).state reports vs ∧
      ∀ way name text, Eligible c inside way name text →
        Text.endsWith name c.testFileSuffix = true →
        (∃ f written outcomes, vs.filter (·.1.filePath = filePath dir way name) =
          [(f, ⟨some written, some outcomes⟩)]) ∧
        (reports.flatMap (·.files)).count (filePath dir way name) = 1

/-- Every test file of a module is in one of the units that are worked on, and is written and
reported once. -/
theorem covers_of_load {fs : FileSystem} {c : Config} {log : Log.Logger} {root : String}
    {inside : Listing} {units : List CompilationUnit} (hmarker : c.testUnitMarker = ".test]")
    (hsuffix : '/' ∉ c.testFileSuffix.toList)
    (hdir : fs.find (.ofString root) = .directory inside) (hp : inside.Proper)
    (h : (load fs c log (.ofString root)).result = .ok units)
    (hplain : ∀ u ∈ units, Text.endsWith u.pkgPath c.testUnitMarker = false) :
    ∃ module, (path fs log (.ofString root)).result = .ok module ∧
      Covers c log (.ofString root) module inside units := by
  obtain ⟨module, uss, hmodule, rfl, hloaded⟩ := of_load hdir h
  refine ⟨module, hmodule, ?_, ?_, fun u => nodup_unit hp hloaded, ?_, ?_, ?_⟩
  · exact fun way name text => selected_of_test hmarker hp hloaded
  · intro way name text l he ht hat
    obtain ⟨g, htest, hids⟩ := ids_of_file hp hloaded he hat
    rw [ht] at htest
    rw [hids, if_neg (by simp [GoFile.isExternal, htest]), if_neg (by simp [GoFile.isInternal, htest])]
  · intro u hu f hf
    obtain ⟨way, l, us, hd, hus, hu⟩ := exists_directory hloaded hu
    obtain ⟨name, text, he, hparse⟩ := eligible_of_ofPackage hp hd hus hu hf
    exact ⟨way, name, text, he, hparse⟩
  · intro u hu he
    obtain ⟨hu, hends⟩ := List.mem_filter.1 hu
    have := hplain u hu
    rw [← he] at this
    exact Bool.false_ne_true (this.symm.trans hends)
  · intro reports hr
    obtain ⟨vs, hvs⟩ := Dispatch.visits_of_run hr
    refine ⟨vs, hvs, fun way name text he ht => ?_⟩
    obtain ⟨u, hu, hfilter⟩ := selected_of_test hmarker hp hloaded he ht
    apply visited_once hvs
    · rwa [filePath, Path.endsWith_child hsuffix]
    · apply filter_files (u := u) _ (nodup_unit hp hloaded (List.mem_filter.1 hu).1)
      rw [Dispatch.select, List.filter_comm, hfilter]
      exact List.filter_eq_self.2 (List.forall_mem_singleton.2 (List.mem_filter.1 hu).2)

def sampleListing : Listing :=
  .file "go.mod" (some "module m\n") <|
  .file "a_test.go" (some "package p\n\nfunc TestA() {}\n") <|
  .folder "q" (.file "c.go" (some "package q\n") <|
    .folder "r" (.file "d_test.go" (some "package r_test\n") .empty) .empty) <|
  .folder "vendor" (.file "e_test.go" (some "package v\n") .empty) .empty

lemma proper_sampleListing : sampleListing.Proper := by
  have hr : (Listing.file "d_test.go" (some "package r_test\n") .empty).Proper :=
    .file (by decide) (by decide) .empty
  have hq : (Listing.file "c.go" (some "package q\n") <|
      .folder "r" (.file "d_test.go" (some "package r_test\n") .empty) .empty).Proper :=
    .file (by decide) (by decide) (.folder (by decide) (by decide) hr .empty)
  have hv : (Listing.file "e_test.go" (some "package v\n") .empty).Proper :=
    .file (by decide) (by decide) .empty
  exact .file (by decide) (by decide) <| .file (by decide) (by decide) <|
    .folder (by decide) (by decide) hq <| .folder (by decide) (by decide) hv .empty

def sampleFiles : FileSystem := ⟨.folder "m" sampleListing .empty, []⟩

set_option maxRecDepth 100000 in
theorem covers_of_load_sampleFiles :
    ∃ units module,
      (load sampleFiles { recursive := true } {} (.ofString "m")).result = .ok units ∧
      units.map (fun u => (u.id, u.paths)) = [("m [m.test]", ["m/a_test.go"]), ("m/q", ["m/q/c.go"]),
        ("m/q/r_test [m/q/r.test]", ["m/q/r/d_test.go"])] ∧
      Covers { recursive := true } {} (.ofString "m") module sampleListing units := by
  have h : (load sampleFiles { recursive := true } {} (.ofString "m")).result.toOption.map
      (fun units => (units.map fun u => (u.id, u.paths),
        units.all fun u => !Text.endsWith u.pkgPath ".test]")) =
      some ([("m [m.test]", ["m/a_test.go"]), ("m/q", ["m/q/c.go"]),
        ("m/q/r_test [m/q/r.test]", ["m/q/r/d_test.go"])], true) := by
    decide +kernel
  obtain ⟨units, hunits, h⟩ := Option.map_eq_some_iff.1 h
  have hunits := Except.toOption_eq_some.1 hunits
  obtain ⟨houtlines, hplain⟩ := Prod.mk.inj h
  obtain ⟨module, _, hcovers⟩ := covers_of_load rfl (by decide) (by decide +kernel)
    proper_sampleListing hunits (by simpa using hplain)
  exact ⟨units, module, hunits, houtlines, hcovers⟩

end Module

end ParallelTests
