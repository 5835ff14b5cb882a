import Mathlib.Algebra.Order.BigOperators.Group.Finset
import ParallelTests.Proofs.Result
import ParallelTests.Proofs.Run.Pool

namespace ParallelTests.Dispatch

variable {threads : Nat} {jobs : List Run} {p q : Pool}

lemma Reachable.inv (h : Reachable threads jobs p) : Inv jobs p := by
  induction h with
  | refl => exact inv_start
  | tail _ hs ih => exact ih.step hs

lemma task_step_of_running {i : Nat} (h : (p.task i).isRunning = true) :
    ∃ q, Step threads jobs p q := by
  cases ht : p.task i with
  | running left =>
    cases left with
    | nil => exact ⟨_, .finish i ht⟩
    | cons text left => exact ⟨_, .write i text left ht⟩
  | _ => simp [ht, Task.isRunning] at h

lemma task_step_of_waiting {i : Nat} (hw : 0 < threads) (hi : i < p.submitted)
    (ht : p.task i = .waiting) (hn : ∀ i, (p.task i).isRunning = false) :
    ∃ q, Step threads jobs p q := by
  induction i using Nat.strongRecOn with
  | ind i ih =>
    by_cases hf : ∃ j < i, p.task j = .waiting
    · obtain ⟨j, hj, htj⟩ := hf
      exact ih j hj (by omega) htj
    · have hidle : p.busy < threads := by
        rw [Pool.busy, List.countP_eq_zero.2 (by simp [hn])]
        exact hw
      exact ⟨_, .start i hi ht (by simpa using hf) hidle⟩

lemma left_or_step (hw : 0 < threads) (h : Inv jobs p) : p.phase = .left ∨ ∃ q, Step threads jobs p q := by
  have hphase := h.phase
  unfold PhaseInv at hphase
  by_cases hr : ∃ i, (p.task i).isRunning = true
  · obtain ⟨i, hi⟩ := hr
    exact .inr (task_step_of_running hi)
  have hn : ∀ i, (p.task i).isRunning = false := by simpa using hr
  cases hp : p.phase with
  | submitting =>
    obtain hlt | he := Nat.lt_or_eq_of_le h.submitted_le
    · exact .inr ⟨_, .submit hp hlt⟩
    · exact .inr ⟨_, .await hp he⟩
  | waiting =>
    rw [hp] at hphase
    by_cases hall : ∀ i < p.submitted, p.task i = .finished
    · exact .inr ⟨_, .resume _ hp (.inl hall) (.refl _)⟩
    · push Not at hall
      obtain ⟨i, hi, hne⟩ := hall
      have hc := hphase.2 i
      have hi' := hn i
      have ht : p.task i = .waiting := by
        cases ht : p.task i <;> simp_all [Task.isRunning]
      exact .inr (task_step_of_waiting hw hi ht hn)
  | cancelling pending =>
    cases pending with
    | nil => exact .inr ⟨_, .leave hp hn⟩
    | cons i pending => exact .inr ⟨_, .pass i pending hp⟩
  | left => exact .inl rfl

def Task.weight (all : List String) : Task → Nat
  | waiting => all.length + 2
  | running left => left.length + 1
  | finished | cancelled => 0

def Phase.weight (tasks : Nat) : Phase → Nat
  | submitting => tasks + 3
  | waiting => tasks + 2
  | cancelling pending => pending.length + 1
  | left => 0

def Pool.weight (jobs : List Run) (p : Pool) : Nat :=
  p.phase.weight jobs.length + (jobs.length - p.submitted) +
    ∑ i ∈ Finset.range jobs.length, (p.task i).weight (writesOf jobs i)

lemma sum_weight_set_lt {i : Nat} {t : Task} (hi : i < jobs.length)
    (ht : t.weight (writesOf jobs i) < (p.task i).weight (writesOf jobs i)) :
    ∑ j ∈ Finset.range jobs.length, ((p.set i t).task j).weight (writesOf jobs j) <
      ∑ j ∈ Finset.range jobs.length, (p.task j).weight (writesOf jobs j) := by
  apply Finset.sum_lt_sum
  · intro j _
    rw [Pool.task_set]
    split
    · next hj => exact hj ▸ ht.le
    · exact le_rfl
  · exact ⟨i, Finset.mem_range.2 hi, by rw [Pool.task_set_self]; exact ht⟩

lemma weight_lt_of_step (h : Inv jobs p) (hs : Step threads jobs p q) :
    q.weight jobs < p.weight jobs := by
  have hlen := h.submitted_le
  have hphase := h.phase
  unfold PhaseInv at hphase
  have hstarted : ∀ i, p.task i ≠ .waiting → i < jobs.length := fun i hi =>
    Nat.lt_of_lt_of_le (h.submitted_of_started hi) hlen
  unfold Pool.weight
  cases hs with
  | submit hp hlt => simp only [hp]; omega
  | await hp _ => simp only [hp, Phase.weight]; omega
  | start i hi ht _ _ =>
    have hi' : i < jobs.length := by omega
    have := sum_weight_set_lt (p := p) (t := .running (writesOf jobs i)) hi'
      (by simp [ht, Task.weight])
    simp only [Pool.phase_set, Pool.submitted_set]
    omega
  | write i text left ht =>
    have := sum_weight_set_lt (p := p) (t := .running left) (hstarted i (by simp [ht]))
      (by simp [ht, Task.weight])
    simp only [Pool.phase_set, Pool.submitted_set]
    omega
  | finish i ht =>
    have := sum_weight_set_lt (p := p) (t := .finished) (hstarted i (by simp [ht]))
      (by simp [ht, Task.weight])
    simp only [Pool.phase_set, Pool.submitted_set]
    omega
  | resume pending hp _ hperm =>
    have hle : pending.length ≤ p.submitted := by
      rw [hperm.length_eq, Pool.unfinished]
      simpa using List.length_filter_le (fun i => !(p.task i).isFinished) (List.range p.submitted)
    simp only [hp, Phase.weight]
    omega
  | cancel i pending hp ht =>
    rw [hp] at hphase
    have := sum_weight_set_lt (p := p) (t := .cancelled) (hphase.2.1 i (by simp))
      (by simp [ht, Task.weight])
    simp only [hp, Phase.weight, Pool.submitted_set, List.length_cons]
    omega
  | pass i pending hp => simp only [hp, Phase.weight, List.length_cons]; omega
  | leave hp _ => simp only [hp, Phase.weight]; omega

lemma no_endless_run {trace : Nat → Pool} (h0 : trace 0 = .start)
    (hs : ∀ k, Step threads jobs (trace k) (trace (k + 1))) : False := by
  have hr : ∀ k, Reachable threads jobs (trace k) := by
    intro k
    induction k with
    | zero => rw [h0]; exact .refl
    | succ k ih => exact ih.tail (hs k)
  have hle : ∀ k, (trace k).weight jobs + k ≤ (trace 0).weight jobs := by
    intro k
    induction k with
    | zero => exact le_rfl
    | succ k ih =>
      have := weight_lt_of_step (hr k).inv (hs k)
      omega
  have := hle ((trace 0).weight jobs + 1)
  omega

lemma collect_ok (report : UnitReport) (as : List (Option (Except RunError UnitReport))) :
    collect (some (.ok report) :: as) = (collect as).map (Except.map (report :: ·)) := by
  have hs : (some (.ok report) :: as).findSome? error? = as.findSome? error? := rfl
  unfold collect
  rw [hs, List.mapM_cons]
  cases as.findSome? error? with
  | some e => rfl
  | none => cases as.mapM report? <;> rfl

lemma collect_eq {as : List (Option (Except RunError UnitReport))}
    {results : List (Except RunError UnitReport)} (hl : as.length = results.length)
    (h : ∀ i : Nat, (∀ j < i, ∃ r : UnitReport, results[j]? = some (.ok r)) →
      as[i]? = results[i]?.map some) :
    collect as = some (results.mapM id) := by
  induction results generalizing as with
  | nil =>
    obtain rfl := List.eq_nil_of_length_eq_zero hl
    rfl
  | cons x results ih =>
    obtain ⟨a, as, rfl⟩ := List.exists_cons_of_length_eq_add_one hl
    obtain rfl : a = some x := by simpa using h 0 (by simp)
    cases x with
    | error e => rfl
    | ok report =>
      have hrest : collect as = some (results.mapM id) := ih (by simpa using hl) fun i hi => by
        refine h (i + 1) fun j hj => ?_
        cases j with
        | zero => exact ⟨report, rfl⟩
        | succ j => simpa using hi j (by omega)
      rw [collect_ok, hrest, List.mapM_cons]
      cases results.mapM id <;> rfl

lemma answerOf_eq {i : Nat} (h : p.task i = .finished) :
    answerOf jobs p i = (jobs[i]?).map (·.result) := if_pos h

lemma finished_of_left {i : Nat} (h : Inv jobs p) (hp : p.phase = .left) (hi : i < jobs.length)
    (hok : ∀ j < i, ¬Fails jobs j) : p.task i = .finished := by
  have hphase := h.phase
  simp only [PhaseInv, hp] at hphase
  obtain hall | ⟨k, _, hf, hk⟩ := hphase.2
  · exact hall i hi
  · apply hk
    by_contra hlt
    exact hok k (by omega) hf

lemma not_fails {j : Nat} {report : UnitReport}
    (h : (jobs.map (·.result))[j]? = some (.ok report)) : ¬Fails jobs j := by
  rintro ⟨run, e, hr, he⟩
  simp [hr, he] at h

lemma answer_of_left (h : Inv jobs p) (hp : p.phase = .left) : answer jobs p = some (outcome jobs) := by
  have hout : outcome jobs = (jobs.map (·.result)).mapM id := by
    rw [outcome, List.mapM_map]
    rfl
  rw [hout]
  apply collect_eq
  · simp
  · intro i hi
    by_cases hlt : i < jobs.length
    · have hf := finished_of_left h hp hlt fun j hj => by
        obtain ⟨r, hr⟩ := hi j hj
        exact not_fails hr
      simp [hlt, answerOf_eq hf]
    · simp [hlt]

lemma result_run (c : Config) (log : Log.Logger) (units : List CompilationUnit) :
    (run c log units).result = outcome (runs c log (select c units)) := by
  unfold run
  split
  · next h => rw [h]; rfl
  · rfl

lemma outcome_of_first_failure {i : Nat} {run : Run} {e : RunError} (hi : jobs[i]? = some run)
    (he : run.result = .error e)
    (hok : ∀ j < i, ∀ run, jobs[j]? = some run → ∃ report, run.result = .ok report) :
    outcome jobs = .error e := by
  induction jobs generalizing i with
  | nil => simp at hi
  | cons first rest ih =>
    rw [outcome, List.mapM_cons]
    cases i with
    | zero =>
      obtain rfl : first = run := by simpa using hi
      rw [he]
      rfl
    | succ i =>
      obtain ⟨report, hr⟩ := hok 0 (by omega) first rfl
      have hrest := ih (by simpa using hi) fun j hj run hrun =>
        hok (j + 1) (by omega) run (by simpa using hrun)
      rw [outcome] at hrest
      rw [hr, hrest]
      rfl

lemma outcome_of_success (hok : ∀ run ∈ jobs, ∃ report, run.result = .ok report) :
    ∃ reports, outcome jobs = .ok reports ∧
      List.Forall₂ (fun run report => run.result = .ok report) jobs reports := by
  have hex : ∃ reports, outcome jobs = .ok reports := by
    induction jobs with
    | nil => exact ⟨[], rfl⟩
    | cons first rest ih =>
      obtain ⟨report, hr⟩ := hok first (by simp)
      obtain ⟨reports, hrs⟩ := ih fun run hrun => hok run (by simp [hrun])
      refine ⟨report :: reports, ?_⟩
      rw [outcome] at hrs ⊢
      rw [List.mapM_cons, hr, hrs]
      rfl
  obtain ⟨reports, hr⟩ := hex
  exact ⟨reports, hr, Except.forall₂_of_mapM hr⟩

/-- In whatever order the pool makes its steps, it comes to an end, and then the first failure in the
order of the units is given back, or else the reports on all units in their order. If no unit fails,
no task was cancelled, and what was written are the texts of the units, those of each in their
order. -/
theorem answer_of_schedule (c : Config) (log : Log.Logger) (units : List CompilationUnit)
    {threads : Nat} (hw : 0 < threads) :
    (¬∃ trace : Nat → Pool, trace 0 = .start ∧
      ∀ k, Step threads (runs c log (select c units)) (trace k) (trace (k + 1))) ∧
    (∀ p, Reachable threads (runs c log (select c units)) p →
      p.phase = .left ∨ ∃ q, Step threads (runs c log (select c units)) p q) ∧
    ∀ p, Reachable threads (runs c log (select c units)) p → p.phase = .left →
      answer (runs c log (select c units)) p = some (run c log units).result ∧
      (∀ (i : Nat) (u : CompilationUnit) (e : RunError), (select c units)[i]? = some u →
        (Worker.run c log u).result = .error e →
        (∀ j < i, ∀ v, (select c units)[j]? = some v →
          ∃ report, (Worker.run c log v).result = .ok report) →
        answer (runs c log (select c units)) p = some (.error e)) ∧
      ((∀ u ∈ select c units, ∃ report, (Worker.run c log u).result = .ok report) →
        (∃ reports, answer (runs c log (select c units)) p = some (.ok reports) ∧
          List.Forall₂ (fun u report => (Worker.run c log u).result = .ok report)
            (select c units) reports) ∧
        (∀ i < (select c units).length, p.task i = .finished) ∧
        (∀ (i : Nat) (u : CompilationUnit), (select c units)[i]? = some u →
          p.writtenBy i = (Worker.run c log u).state.writes) ∧
        ∀ w ∈ p.sink, w.1 < (select c units).length) := by
  have hruns : ∀ i : Nat, (runs c log (select c units))[i]? =
      (select c units)[i]?.map (Worker.run c log) := by
    intro i
    rw [runs, List.getElem?_map]
  have hlen : (runs c log (select c units)).length = (select c units).length := by
    rw [runs, List.length_map]
  refine ⟨fun ⟨trace, h0, hs⟩ => no_endless_run h0 hs, fun p hr => left_or_step hw hr.inv, ?_⟩
  intro p hr hp
  have hanswer := answer_of_left hr.inv hp
  refine ⟨by rw [hanswer, result_run], ?_, ?_⟩
  · intro i u e hi he hok
    rw [hanswer, outcome_of_first_failure (by rw [hruns, hi]; rfl) he]
    intro j hj run hrun
    rw [hruns, Option.map_eq_some_iff] at hrun
    obtain ⟨v, hv, rfl⟩ := hrun
    exact hok j hj v hv
  · intro hok
    have hfails : ∀ i, ¬Fails (runs c log (select c units)) i := by
      rintro i ⟨run, e, hrun, he⟩
      rw [hruns, Option.map_eq_some_iff] at hrun
      obtain ⟨u, hu, rfl⟩ := hrun
      obtain ⟨report, hreport⟩ := hok u (List.mem_of_getElem? hu)
      rw [hreport] at he
      cases he
    have hdone : ∀ i < (select c units).length, p.task i = .finished := fun i hi =>
      finished_of_left hr.inv hp (by rw [hlen]; exact hi) fun j _ => hfails j
    refine ⟨?_, hdone, ?_, fun w hmem => hlen ▸ hr.inv.writers w hmem⟩
    · obtain ⟨reports, hout, hall⟩ :=
        @outcome_of_success (runs c log (select c units)) (by simpa [runs] using hok)
      refine ⟨reports, by rw [hanswer, hout], ?_⟩
      rwa [runs, List.forall₂_map_left_iff] at hall
    · intro i u hu
      have hwritten := hr.inv.written i
      rw [hdone i (List.getElem?_eq_some_iff.1 hu).1] at hwritten
      simpa [Task.rest, writesOf, hruns, hu] using hwritten

def sampleUnit (id : String) (text : Piece) : CompilationUnit :=
  ⟨id, id, "p", [.mk none {} (some [text]) (.file (id ++ "_test.go") "p" [] [])], {}⟩

def sampleUnits : List CompilationUnit :=
  [sampleUnit "a" (.text "package p\n"),
    sampleUnit "a [a.test]" (.text "package p\n"),
    sampleUnit "b [b.test]" (.inline (.mk none {} none (.labeled (.mk none {} none (.ident "L")) none))),
    sampleUnit "c [c.test]" (.inline (.mk none {} none (.unknown "c")))]

set_option maxRecDepth 10000 in
theorem answer_of_schedule_sampleUnits :
    0 < 2 ∧ ∀ p, Reachable 2 (runs {} {} (select {} sampleUnits)) p → p.phase = .left →
      answer (runs {} {} (select {} sampleUnits)) p =
        some (.error (.print ⟨.file, .noPrinter .labeled⟩)) := by
  refine ⟨by decide, fun p hr hp => ?_⟩
  have hsel : select {} sampleUnits = sampleUnits.tail := by rfl
  have h := ((@answer_of_schedule {} {} sampleUnits 2 (by decide)).2.2 p hr hp).2.1
  rw [hsel] at h ⊢
  refine h 1 _ _ rfl ?_ ?_
  · decide +kernel
  · intro j hj v hv
    obtain rfl : j = 0 := by omega
    obtain rfl := Option.some.inj hv
    exact ⟨⟨"a [a.test]", ["a [a.test]_test.go"], []⟩, by decide +kernel⟩

end ParallelTests.Dispatch
