import Mathlib.Algebra.Ring.Nat
import ParallelTests.Proofs.Edit.EndToEnd
import ParallelTests.Proofs.Run.Visits
import ParallelTests.Run.Report

namespace ParallelTests

variable {c : Config} {types : TypeTable} {log : Log.Logger}

/-! ### One outcome for each function -/

def Node.functions (f : Node) : List Node := f.children.filter Node.isFuncDecl

def CompilationUnit.testFiles (c : Config) (u : CompilationUnit) : List Node :=
  u.files.filter (Worker.isTestFile c)

def CompilationUnit.testFunctions (c : Config) (u : CompilationUnit) : List Node :=
  (u.testFiles c).flatMap Node.functions

def Outcome.origin (o : Outcome) : String × String := (o.path, o.function)

def Node.origins (f : Node) : List (String × String) :=
  f.functions.map fun d => (f.filePath, d.funcName)

lemma Edit.origin_of_function {place : Place} {path : String} {decl : Node} {o : Outcome}
    (h : (Edit.function c types place path log decl).result = .ok o) :
    o.origin = (path, decl.funcName) := by
  refine Prod.ext ?_ (Edit.function_ok h)
  unfold Edit.function at h
  dsimp only at h
  split at h
  · obtain rfl := Except.ok.inj h
    rfl
  · split at h
    · cases h
    · obtain ⟨_, _, rfl⟩ := Except.map_eq_ok_iff.1 h
      rfl
    · obtain rfl := Except.ok.inj h
      rfl

namespace Worker

lemma origins_of_decls {index i : Nat} {path : String} {ds : List Node} {outcomes : List Outcome}
    (h : (decls c types index path log i ds).result = .ok outcomes) :
    outcomes.map Outcome.origin =
      (ds.filter Node.isFuncDecl).map fun d => (path, d.funcName) := by
  induction ds generalizing i outcomes with
  | nil =>
    obtain rfl := Except.ok.inj h
    rfl
  | cons d ds ih =>
    rcases decls_cons h with ⟨hfunc, log', o, os, rfl, ho, hos, -⟩ | ⟨hfunc, hos, -⟩
    · rw [List.filter_cons_of_pos hfunc, List.map_cons, List.map_cons, ih hos,
        Edit.origin_of_function ho]
    · rw [List.filter_cons_of_neg (by simp [hfunc]), ih hos]

lemma origins_of_visit {i : Nat} {f : Node} {done : FileResult}
    (h : (visit c types log i f).result = .ok done) :
    (done.outcomes.getD []).map Outcome.origin = if isTestFile c f then f.origins else [] := by
  have hkind := of_visit h
  split at hkind
  · next ht =>
    obtain ⟨text, outcomes, rfl⟩ := hkind
    rw [if_pos ht]
    unfold visit at h
    rw [if_pos ht] at h
    dsimp only at h
    split at h
    · cases h
    · next os hos =>
      split at h
      · cases h
      · obtain ⟨-, hout⟩ := FileResult.mk.inj (Except.ok.inj h)
        obtain rfl := Option.some.inj hout
        exact origins_of_decls hos
  · next ht => simp [ht, hkind]

theorem origins_of_run {u : CompilationUnit} {report : UnitReport}
    (h : (run c log u).result = .ok report) :
    report.functions.map Outcome.origin = (u.testFiles c).flatMap Node.origins := by
  obtain ⟨vs, hvs⟩ := Dispatch.visits_of_worker h
  have hfiles : vs.map Prod.fst = u.files := by simpa using hvs.files
  have hfunctions : report.functions = vs.flatMap (·.2.outcomes.getD []) := by
    simpa using hvs.functions
  have hvisit : ∀ v ∈ vs, (v.2.outcomes.getD []).map Outcome.origin =
      if isTestFile c v.1 then v.1.origins else [] := by
    intro v hv
    obtain ⟨u', -, i, -, hv⟩ := hvs.visit v hv
    exact origins_of_visit hv
  rw [hfunctions, List.map_flatMap, CompilationUnit.testFiles, ← hfiles]
  clear hvs hfiles hfunctions h
  induction vs with
  | nil => rfl
  | cons v vs ih =>
    rw [List.flatMap_cons, hvisit v (by simp), ih fun v' hv' => hvisit v' (by simp [hv']),
      List.map_cons]
    cases ht : isTestFile c v.1 <;> simp [ht]

lemma length_of_run {u : CompilationUnit} {report : UnitReport}
    (h : (run c log u).result = .ok report) :
    report.functions.length = (u.testFunctions c).length := by
  have := congrArg List.length (origins_of_run h)
  simpa [CompilationUnit.testFunctions, Node.origins, List.length_flatMap] using this

end Worker

/-! ### Totals -/

lemma Status.sum_countP (os : List Outcome) :
    (Status.all.map fun s => os.countP (·.status = s)).sum = os.length := by
  induction os with
  | nil => rfl
  | cons o os ih =>
    rw [List.length_cons, ← ih]
    cases h : o.status <;> simp [Status.all, List.countP_cons, h] <;> omega

namespace RunReport

lemma total_eq (r : RunReport) (s : Status) :
    r.total s = (r.units.flatMap (·.functions)).countP (·.status = s) := by
  have hfold : ∀ (us : List UnitReport) (n : Nat), us.foldl (fun n u => n + u.count s) n =
      n + (us.flatMap (·.functions)).countP (·.status = s) := by
    intro us
    induction us with
    | nil => intro n; rfl
    | cons u us ih =>
      intro n
      rw [List.foldl_cons, ih, List.flatMap_cons, List.countP_append, UnitReport.count,
        Nat.add_assoc]
  rw [total, hfold, Nat.zero_add]

lemma sum_totals (r : RunReport) :
    (r.totals.map Prod.snd).sum = (r.units.flatMap (·.functions)).length := by
  rw [totals, List.map_map, ← Status.sum_countP]
  congr 1
  exact List.map_congr_left fun s _ => r.total_eq s

/-! ### Order -/

lemma units_perm (reports : List UnitReport) : (ofUnits reports).units.Perm reports :=
  List.mergeSort_perm reports _

lemma functions_perm (reports : List UnitReport) :
    ((ofUnits reports).units.flatMap (·.functions)).Perm (reports.flatMap (·.functions)) :=
  (units_perm reports).flatMap_right _

lemma pairwise_le (reports : List UnitReport) :
    (ofUnits reports).units.Pairwise (·.unitId ≤ ·.unitId) := by
  have h : (ofUnits reports).units.Pairwise fun a b => decide (a.unitId ≤ b.unitId) = true :=
    List.pairwise_mergeSort (by simpa using fun a b c => String.le_trans)
      (by simpa using fun a b => String.le_total _ _) reports
  exact h.imp fun hab => of_decide_eq_true hab

lemma pairwise_lt {reports : List UnitReport} (hids : (reports.map (·.unitId)).Nodup) :
    (ofUnits reports).units.Pairwise (·.unitId < ·.unitId) := by
  have hne : (ofUnits reports).units.Pairwise (·.unitId ≠ ·.unitId) :=
    List.pairwise_map.1 (((units_perm reports).map _).nodup_iff.2 hids)
  exact (pairwise_le reports).imp₂
    (fun a b hle hne => String.not_le.1 fun hge => hne (String.le_antisymm hle hge)) hne

lemma ofUnits_perm {reports reports' : List UnitReport} (hids : (reports.map (·.unitId)).Nodup)
    (h : reports'.Perm reports) : ofUnits reports' = ofUnits reports := by
  have hids' : (reports'.map (·.unitId)).Nodup := (h.map _).nodup_iff.2 hids
  have hperm := (units_perm reports').trans (h.trans (units_perm reports).symm)
  have heq : (ofUnits reports').units = (ofUnits reports).units :=
    hperm.eq_of_pairwise (fun a b _ _ hab hba => absurd hba (String.lt_asymm hab))
      (pairwise_lt hids') (pairwise_lt hids)
  exact congrArg mk heq

/-- The report on a run does not depend on the order in which the units were finished. It has the
reports on the units by increasing id, it counts every outcome under its status, and together these
are as many as the functions that the test files of the units declare. -/
theorem ofUnits_tally (reports : List UnitReport) (hids : (reports.map (·.unitId)).Nodup) :
    (∀ reports' : List UnitReport, reports'.Perm reports → ofUnits reports' = ofUnits reports) ∧
    (ofUnits reports).units.Pairwise (·.unitId < ·.unitId) ∧
    (ofUnits reports).units.Perm reports ∧
    (∀ s, (ofUnits reports).total s = (reports.flatMap (·.functions)).countP (·.status = s)) ∧
    ∀ works : List (Config × CompilationUnit),
      List.Forall₂ (fun w r => ∃ log, (Worker.run w.1 log w.2).result = .ok r) works reports →
        ((ofUnits reports).totals.map Prod.snd).sum =
          (works.flatMap fun w => w.2.testFunctions w.1).length := by
  refine ⟨fun reports' h => ofUnits_perm hids h, pairwise_lt hids, units_perm reports,
    fun s => ?_, fun works hworks => ?_⟩
  · rw [total_eq]
    exact (functions_perm reports).countP_eq _
  · rw [sum_totals, (functions_perm reports).length_eq]
    clear hids
    induction hworks with
    | nil => rfl
    | cons h _ ih =>
      obtain ⟨log, hrun⟩ := h
      rw [List.flatMap_cons, List.flatMap_cons, List.length_append, List.length_append, ih,
        Worker.length_of_run hrun]

open Worker in
set_option maxRecDepth 100000 in
theorem ofUnits_tally_nestedSource :
    ∃ (unit unit' : CompilationUnit) (r r' : UnitReport), (run {} {} unit).result = .ok r ∧
      (run {} {} unit').result = .ok r' ∧ ([r', r].map (·.unitId)).Nodup ∧
      ofUnits [r, r'] = ofUnits [r', r] ∧ (ofUnits [r', r]).total .subtestParallelized = 2 ∧
      ((ofUnits [r', r]).totals.map Prod.snd).sum = 2 := by
  have h : ∃ file, (nestedSource "x()").parse = .ok file ∧
      ((Types.resolveAll "p" [file]).toOption.bind fun types =>
        let unit := single file types
        let unit' := { unit with id := "q.test" }
        (run {} {} unit).result.toOption.bind fun r =>
          (run {} {} unit').result.toOption.map fun r' =>
            ([r', r].map (·.unitId), ([r', r].flatMap (·.functions)).countP
                (·.status = .subtestParallelized),
              ([({}, unit'), ({}, unit)].flatMap fun w => w.2.testFunctions w.1).length)) =
        some (["q.test", "p.test"], 2, 2) :=
    Source.exists_of_parse (by decide +kernel)
  obtain ⟨file, hparse, h⟩ := h
  obtain ⟨types, -, h⟩ := Option.bind_eq_some_iff.1 h
  obtain ⟨r, hr, h⟩ := Option.bind_eq_some_iff.1 h
  obtain ⟨r', hr', h⟩ := Option.map_eq_some_iff.1 h
  obtain ⟨hids, hstatus, hfunctions⟩ := by simpa only [Prod.mk.injEq] using h
  have hr := Except.toOption_eq_some.1 hr
  have hr' := Except.toOption_eq_some.1 hr'
  have hnodup : ([r', r].map (·.unitId)).Nodup := by
    rw [hids]
    decide
  obtain ⟨hperm, -, -, htotal, hsum⟩ := ofUnits_tally [r', r] hnodup
  refine ⟨_, _, r, r', hr, hr', hnodup, hperm _ (.swap r' r []), ?_, ?_⟩
  · rw [htotal, hstatus]
  · exact (hsum [({}, _), ({}, _)] (.cons ⟨{}, hr'⟩ (.cons ⟨{}, hr⟩ .nil))).trans hfunctions

end RunReport

end ParallelTests
