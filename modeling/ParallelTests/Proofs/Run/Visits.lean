import ParallelTests.Proofs.Result
import ParallelTests.Run.Dispatch

namespace ParallelTests

open Worker

variable {c : Config} {types : TypeTable} {log : Log.Logger}

namespace Worker

lemma of_visit {i : Nat} {f : Node} {done : FileResult} (h : (visit c types log i f).result = .ok done) :
    if isTestFile c f then ∃ text outcomes, done = ⟨some text, some outcomes⟩
    else done.outcomes = none := by
  unfold visit at h
  split
  · next ht =>
    rw [if_pos ht] at h
    dsimp only at h
    split at h
    · cases h
    · next outcomes _ =>
      split at h
      · cases h
      · next text _ => exact ⟨text, outcomes, (Except.ok.inj h).symm⟩
  · next ht =>
    rw [if_neg ht] at h
    dsimp only at h
    split at h
    · split at h
      · cases h
      · exact Except.ok.inj h ▸ rfl
    · exact Except.ok.inj h ▸ rfl

abbrev Visit := Node × FileResult

lemma files_visits {fs : List Node} {i : Nat} {told : List (String × List Outcome)}
    (h : (Worker.files c types log i fs).result = .ok told) :
    ∃ vs : List Visit, vs.map Prod.fst = fs ∧
      (∀ j v, vs[j]? = some v → (visit c types log (i + j) v.1).result = .ok v.2) ∧
      (Worker.files c types log i fs).state.writes = vs.filterMap (·.2.written) ∧
      told = vs.filterMap fun v => v.2.outcomes.map (v.1.filePath, ·) := by
  induction fs generalizing i told with
  | nil => exact ⟨[], rfl, by simp, rfl, (Except.ok.inj h).symm⟩
  | cons f fs ih =>
    rw [Worker.files] at h ⊢
    dsimp only at h ⊢
    cases hr : (visit c types log i f).result with
    | error e =>
      rw [hr] at h
      cases h
    | ok done =>
      rw [hr] at h
      obtain ⟨more, hmore, rfl⟩ := Except.map_eq_ok_iff.1 h
      obtain ⟨vs, hfiles, hvisit, hwrites, rfl⟩ := ih hmore
      refine ⟨(f, done) :: vs, by rw [List.map_cons, hfiles], ?_, ?_, ?_⟩
      · intro j v hj
        cases j with
        | zero =>
          obtain rfl := Option.some.inj hj
          exact hr
        | succ j =>
          have := hvisit j v hj
          rwa [Nat.add_assoc, Nat.add_comm 1] at this
      · rw [hwrites, List.filterMap_cons]
        cases hw : done.written <;> simp [hw]
      · rw [List.filterMap_cons]
        cases done.outcomes <;> simp

lemma flatMap_told (vs : List Visit) :
    (vs.filterMap fun v => v.2.outcomes.map (v.1.filePath, ·)).flatMap (·.2) =
      vs.flatMap (·.2.outcomes.getD []) := by
  induction vs with
  | nil => rfl
  | cons v vs ih =>
    rw [List.filterMap_cons, List.flatMap_cons, ← ih]
    cases v.2.outcomes <;> simp

end Worker

namespace Dispatch

structure Visits (c : Config) (log : Log.Logger) (units : List CompilationUnit) (writes : List String)
    (reports : List UnitReport) (vs : List Visit) : Prop where
  files : vs.map Prod.fst = units.flatMap (·.files)
  visit : ∀ v ∈ vs, ∃ u ∈ units, ∃ i, u.files[i]? = some v.1 ∧
    (Worker.visit c u.types (log.withContext [("unit", .text u.id)]) i v.1).result = .ok v.2
  writes : writes = vs.filterMap (·.2.written)
  paths : reports.flatMap (·.files) =
    vs.filterMap fun v => v.2.outcomes.map fun _ => v.1.filePath
  functions : reports.flatMap (·.functions) = vs.flatMap (·.2.outcomes.getD [])

lemma visits_of_worker {u : CompilationUnit} {report : UnitReport}
    (h : (Worker.run c log u).result = .ok report) :
    ∃ vs, Visits c log [u] (Worker.run c log u).state.writes [report] vs := by
  unfold Worker.run at h ⊢
  dsimp only at h ⊢
  split at h
  · cases h
  · next told htold =>
    obtain rfl := Except.ok.inj h
    obtain ⟨vs, hfiles, hvisit, hwrites, rfl⟩ := Worker.files_visits htold
    refine ⟨vs, by simpa using hfiles, ?_, ?_, ?_, ?_⟩
    · intro v hv
      obtain ⟨j, hj, rfl⟩ := List.getElem_of_mem hv
      have hget := List.getElem?_eq_getElem hj
      refine ⟨u, by simp, j, ?_, by simpa using hvisit j _ hget⟩
      rw [← hfiles, List.getElem?_map, hget]
      rfl
    · simpa [htold] using hwrites
    · simp only [report, List.flatMap_cons, List.flatMap_nil, List.append_nil, List.map_filterMap,
        Option.map_map]
      rfl
    · simp only [report, List.flatMap_cons, List.flatMap_nil, List.append_nil, flatMap_told]

lemma Visits.append {us us' : List CompilationUnit} {writes writes' : List String}
    {reports reports' : List UnitReport} {vs vs' : List Visit} (h : Visits c log us writes reports vs)
    (h' : Visits c log us' writes' reports' vs') :
    Visits c log (us ++ us') (writes ++ writes') (reports ++ reports') (vs ++ vs') where
  files := by rw [List.map_append, h.files, h'.files, List.flatMap_append]
  visit v hv := by
    obtain hv | hv := List.mem_append.1 hv
    · obtain ⟨u, hu, hvisit⟩ := h.visit v hv
      exact ⟨u, by simp [hu], hvisit⟩
    · obtain ⟨u, hu, hvisit⟩ := h'.visit v hv
      exact ⟨u, by simp [hu], hvisit⟩
  writes := by rw [h.writes, h'.writes, List.filterMap_append]
  paths := by rw [List.flatMap_append, h.paths, h'.paths, List.filterMap_append]
  functions := by rw [List.flatMap_append, h.functions, h'.functions, List.flatMap_append]

lemma visits_of_run {units : List CompilationUnit} {reports : List UnitReport}
    (h : (run c log units).result = .ok reports) :
    ∃ vs, Visits c log (select c units) (run c log units).state reports vs := by
  have hall (us : List CompilationUnit) (reports : List UnitReport)
      (h : outcome (runs c log us) = .ok reports) :
      ∃ vs, Visits c log us ((runs c log us).flatMap (·.state.writes)) reports vs := by
    induction us generalizing reports with
    | nil =>
      obtain rfl := Except.pure_eq_ok_iff.1 h
      exact ⟨[], rfl, by simp, rfl, rfl, rfl⟩
    | cons u us ih =>
      rw [outcome, runs, List.map_cons, List.mapM_cons] at h
      obtain ⟨report, hreport, h⟩ := Except.bind_eq_ok_iff.1 h
      obtain ⟨more, hmore, h⟩ := Except.bind_eq_ok_iff.1 h
      obtain rfl := Except.pure_eq_ok_iff.1 h
      obtain ⟨vs, hvs⟩ := visits_of_worker hreport
      obtain ⟨vs', hvs'⟩ := ih more hmore
      exact ⟨vs ++ vs', hvs.append hvs'⟩
  unfold run at h ⊢
  split at h
  · next hs =>
    obtain rfl := Except.ok.inj h
    rw [hs]
    exact ⟨[], rfl, by simp, rfl, rfl, rfl⟩
  · exact hall _ reports h

end Dispatch

end ParallelTests
