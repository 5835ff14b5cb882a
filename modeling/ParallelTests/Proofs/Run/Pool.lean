import Mathlib.Data.List.Perm.Basic
import Mathlib.Logic.Function.Basic
import Mathlib.Logic.Relation
import Mathlib.Tactic.Common
import ParallelTests.Run.Dispatch

/-!
The pool of threads on which the units are worked on, as a machine that makes one step at a time.
The thread that dispatches submits the tasks, waits, cancels what is left over and leaves the pool;
in between tasks start, write and finish. Which step comes next is open.
-/

namespace ParallelTests.Dispatch

abbrev Run := Progress RunError Worker.Work UnitReport

inductive Task
  | waiting
  | running (left : List String)
  | finished
  | cancelled
  deriving DecidableEq

namespace Task

def isRunning : Task → Bool
  | running _ => true
  | _ => false

def isFinished : Task → Bool
  | finished => true
  | _ => false

def hasStarted : Task → Bool
  | running _ | finished => true
  | _ => false

end Task

inductive Phase
  | submitting
  | waiting
  | cancelling (pending : List Nat)
  | left

/-- Tasks are numbered in the order in which they are submitted. The sink holds what was written, each
text with the number of the task that wrote it. -/
structure Pool where
  phase : Phase
  submitted : Nat
  task : Nat → Task
  sink : List (Nat × String)

namespace Pool

def start : Pool := ⟨.submitting, 0, fun _ => .waiting, []⟩

def set (p : Pool) (i : Nat) (t : Task) : Pool := { p with task := Function.update p.task i t }

def busy (p : Pool) : Nat := (List.range p.submitted).countP fun i => (p.task i).isRunning

def unfinished (p : Pool) : List Nat :=
  (List.range p.submitted).filter fun i => !(p.task i).isFinished

def writtenBy (p : Pool) (i : Nat) : List String :=
  (p.sink.filter (·.1 = i)).map (·.2)

end Pool

section

variable (threads : Nat) (jobs : List Run)

def writesOf (i : Nat) : List String := ((jobs[i]?).map (·.state.writes)).getD []

def Fails (i : Nat) : Prop := ∃ run e, jobs[i]? = some run ∧ run.result = .error e

/-- The steps of the pool. Tasks are taken up in the order of their submission while a thread is
free. Waiting ends when all tasks are finished or one has failed; what is unfinished then is
cancelled, in any order, and tasks may start in the meantime. A request to cancel a task has an
effect only if the task has not started. The pool is left when no task is running. -/
inductive Step : Pool → Pool → Prop
  | submit {p : Pool} : p.phase = .submitting → p.submitted < jobs.length →
      Step p { p with submitted := p.submitted + 1 }
  | await {p : Pool} : p.phase = .submitting → p.submitted = jobs.length →
      Step p { p with phase := .waiting }
  | start {p : Pool} (i : Nat) : i < p.submitted → p.task i = .waiting →
      (∀ j < i, p.task j ≠ .waiting) → p.busy < threads →
      Step p (p.set i (.running (writesOf jobs i)))
  | write {p : Pool} (i : Nat) (text : String) (left : List String) :
      p.task i = .running (text :: left) →
      Step p { p.set i (.running left) with sink := p.sink ++ [(i, text)] }
  | finish {p : Pool} (i : Nat) : p.task i = .running [] → Step p (p.set i .finished)
  | resume {p : Pool} (pending : List Nat) : p.phase = .waiting →
      ((∀ i < p.submitted, p.task i = .finished) ∨
        ∃ i < p.submitted, p.task i = .finished ∧ Fails jobs i) →
      pending.Perm p.unfinished → Step p { p with phase := .cancelling pending }
  | cancel {p : Pool} (i : Nat) (pending : List Nat) : p.phase = .cancelling (i :: pending) →
      p.task i = .waiting → Step p { p.set i .cancelled with phase := .cancelling pending }
  | pass {p : Pool} (i : Nat) (pending : List Nat) : p.phase = .cancelling (i :: pending) →
      Step p { p with phase := .cancelling pending }
  | leave {p : Pool} : p.phase = .cancelling [] → (∀ i, (p.task i).isRunning = false) →
      Step p { p with phase := .left }

def Reachable (p : Pool) : Prop := Relation.ReflTransGen (Step threads jobs) .start p

def answerOf (p : Pool) (i : Nat) : Option (Except RunError UnitReport) :=
  if p.task i = .finished then (jobs[i]?).map (·.result) else none

def error? : Option (Except RunError UnitReport) → Option RunError
  | some (.error e) => some e
  | _ => none

def report? : Option (Except RunError UnitReport) → Option UnitReport
  | some (.ok report) => some report
  | _ => none

def collect (results : List (Option (Except RunError UnitReport))) :
    Option (Except RunError (List UnitReport)) :=
  match results.findSome? error? with
  | some e => some (.error e)
  | none => (results.mapM report?).map .ok

def answer (p : Pool) : Option (Except RunError (List UnitReport)) :=
  collect ((List.range jobs.length).map (answerOf jobs p))

end

namespace Pool

variable (p : Pool) (i j : Nat) (t : Task)

@[simp] lemma phase_set : (p.set i t).phase = p.phase := rfl

@[simp] lemma submitted_set : (p.set i t).submitted = p.submitted := rfl

@[simp] lemma task_set_self : (p.set i t).task i = t := Function.update_self ..

lemma task_set : (p.set i t).task j = if j = i then t else p.task j := by
  by_cases h : j = i
  · simp [h]
  · rw [if_neg h]
    exact Function.update_of_ne h _ _

end Pool

def Task.rest (all : List String) : Task → List String
  | waiting | cancelled => all
  | running left => left
  | finished => []

variable {threads : Nat} {jobs : List Run} {p q : Pool}

def Decided (done : Task → Prop) (jobs : List Run) (p : Pool) : Prop :=
  (∀ i < jobs.length, done (p.task i)) ∨
    ∃ k < jobs.length, Fails jobs k ∧ ∀ i ≤ k, done (p.task i)

def PhaseInv (jobs : List Run) (p : Pool) : Prop :=
  match p.phase with
  | .submitting => ∀ i, p.task i ≠ .cancelled
  | .waiting => p.submitted = jobs.length ∧ ∀ i, p.task i ≠ .cancelled
  | .cancelling pending => p.submitted = jobs.length ∧ (∀ i ∈ pending, i < jobs.length) ∧
      Decided (·.hasStarted = true) jobs p
  | .left => p.submitted = jobs.length ∧ Decided (· = .finished) jobs p

structure Inv (jobs : List Run) (p : Pool) : Prop where
  submitted_le : p.submitted ≤ jobs.length
  outside : ∀ i, p.submitted ≤ i → p.task i = .waiting
  inOrder : ∀ i j, i < j → (p.task j).hasStarted = true → p.task i ≠ .waiting
  written : ∀ i, p.writtenBy i ++ (p.task i).rest (writesOf jobs i) = writesOf jobs i
  writers : ∀ w ∈ p.sink, w.1 < jobs.length
  phase : PhaseInv jobs p

lemma inv_start : Inv jobs .start where
  submitted_le := Nat.zero_le _
  outside _ _ := rfl
  inOrder _ _ _ h := by simp [Pool.start, Task.hasStarted] at h
  written _ := rfl
  writers _ h := by simp [Pool.start] at h
  phase _ := by simp [Pool.start]

structure Advances (p q : Pool) : Prop where
  phase_eq : q.phase = p.phase
  submitted_eq : q.submitted = p.submitted
  started : ∀ i, (p.task i).hasStarted = true → (q.task i).hasStarted = true
  finished : ∀ i, p.task i = .finished → q.task i = .finished
  cancelled : ∀ i, q.task i = .cancelled → p.task i = .cancelled

lemma Decided.mono {done done' : Task → Prop} (h : Decided done jobs p)
    (hd : ∀ i, done (p.task i) → done' (q.task i)) : Decided done' jobs q := by
  obtain h | ⟨k, hk, hf, h⟩ := h
  · exact .inl fun i hi => hd i (h i hi)
  · exact .inr ⟨k, hk, hf, fun i hi => hd i (h i hi)⟩

lemma PhaseInv.advance (h : PhaseInv jobs p) (ha : Advances p q) : PhaseInv jobs q := by
  unfold PhaseInv at h ⊢
  rw [ha.phase_eq, ha.submitted_eq]
  split at h
  · exact fun i hi => h i (ha.cancelled i hi)
  · exact ⟨h.1, fun i hi => h.2 i (ha.cancelled i hi)⟩
  · exact ⟨h.1, h.2.1, h.2.2.mono ha.started⟩
  · exact ⟨h.1, h.2.mono ha.finished⟩

lemma advances_set {i : Nat} {t : Task} (ht : t.hasStarted = true) (hf : p.task i ≠ .finished)  :
    Advances p (p.set i t) where
  phase_eq := rfl
  submitted_eq := rfl
  started j h := by
    rw [Pool.task_set]
    split <;> assumption
  finished j h := by
    rw [Pool.task_set, if_neg (by rintro rfl; exact hf h), h]
  cancelled j h := by
    rw [Pool.task_set] at h
    split at h
    · simp [h, Task.hasStarted] at ht
    · exact h

namespace Inv

lemma set {i : Nat} {t : Task} {sink : List (Nat × String)} (h : Inv jobs p) (hi : i < p.submitted)
    (ht : t.hasStarted = true) (hf : p.task i ≠ .finished)
    (ho : (p.task i).hasStarted = true ∨ ∀ j < i, p.task j ≠ .waiting)
    (hw : ∀ j, ({ p.set i t with sink } : Pool).writtenBy j ++
      ((p.set i t).task j).rest (writesOf jobs j) = writesOf jobs j)
    (hs : ∀ w ∈ sink, w.1 < jobs.length) : Inv jobs { p.set i t with sink } where
  submitted_le := h.submitted_le
  outside j hj := by
    have hj' : p.submitted ≤ j := hj
    change (p.set i t).task j = _
    rw [Pool.task_set, if_neg (by omega), h.outside j hj']
  inOrder j k hjk hk := by
    change (p.set i t).task j ≠ _
    replace hk : ((p.set i t).task k).hasStarted = true := hk
    rw [Pool.task_set] at hk ⊢
    split
    · rintro rfl
      simp [Task.hasStarted] at ht
    · split at hk
      · next hki =>
        subst hki
        obtain ho | ho := ho
        · exact h.inOrder j k hjk ho
        · exact ho j hjk
      · exact h.inOrder j k hjk hk
  written := hw
  writers := hs
  phase := (h.phase.advance (advances_set ht hf) : PhaseInv jobs (p.set i t))

lemma submitted_of_started {i : Nat} (h : Inv jobs p) (hi : p.task i ≠ .waiting) :
    i < p.submitted := by
  by_contra hn
  exact hi (h.outside i (by omega))

lemma written_set {i : Nat} {t : Task} (h : Inv jobs p)
    (hr : t.rest (writesOf jobs i) = (p.task i).rest (writesOf jobs i)) (j : Nat) :
    (p.set i t).writtenBy j ++ ((p.set i t).task j).rest (writesOf jobs j) = writesOf jobs j := by
  rw [Pool.task_set]
  split
  · next hj =>
    subst hj
    rw [hr]
    exact h.written j
  · exact h.written j

lemma written_write {i : Nat} {text : String} {left : List String} (h : Inv jobs p)
    (ht : p.task i = .running (text :: left)) (j : Nat) :
    ({ p.set i (.running left) with sink := p.sink ++ [(i, text)] } : Pool).writtenBy j ++
      ((p.set i (.running left)).task j).rest (writesOf jobs j) = writesOf jobs j := by
  have hold := h.written j
  rw [Pool.task_set, Pool.writtenBy, List.filter_append, List.map_append]
  by_cases hj : j = i
  · subst hj
    rw [ht] at hold
    simpa [Task.rest, Pool.writtenBy] using hold
  · simpa [hj, Ne.symm hj, Pool.writtenBy] using hold

lemma decided_of_failed {k : Nat} (h : Inv jobs p) (hc : ∀ i, p.task i ≠ .cancelled)
    (hk : p.task k = .finished) : ∀ i ≤ k, (p.task i).hasStarted = true := by
  intro i hi
  obtain rfl | hlt := Nat.eq_or_lt_of_le hi
  · rw [hk]
    rfl
  · have hw := h.inOrder i k hlt (by rw [hk]; rfl)
    have hn := hc i
    cases ht : p.task i <;> simp_all [Task.hasStarted]

lemma step (h : Inv jobs p) (hs : Step threads jobs p q) : Inv jobs q := by
  have hphase := h.phase
  unfold PhaseInv at hphase
  cases hs with
  | submit hp hlt =>
    exact { h with
      submitted_le := hlt
      outside := fun i hi => h.outside i (Nat.le_of_succ_le hi)
      phase := by simpa [PhaseInv, hp] using hphase }
  | await hp he =>
    exact { h with phase := by simpa [PhaseInv, hp, he] using hphase }
  | start i hi hw ho _ =>
    apply h.set hi rfl (by simp [hw]) (.inr ho) (h.written_set _) h.writers
    rw [hw]
    rfl
  | write i text left ht =>
    have hi := h.submitted_of_started (i := i) (by simp [ht])
    apply h.set hi rfl (by simp [ht]) (.inl (by rw [ht]; rfl)) (h.written_write ht)
    intro w hw
    obtain hw | rfl := by simpa using hw
    · exact h.writers w hw
    · exact Nat.lt_of_lt_of_le hi h.submitted_le
  | finish i ht =>
    apply h.set (h.submitted_of_started (i := i) (by simp [ht])) rfl (by simp [ht])
      (.inl (by rw [ht]; rfl)) (h.written_set _) h.writers
    rw [ht]
    rfl
  | resume pending hp hdone hperm =>
    rw [hp] at hphase
    obtain ⟨hsub, hc⟩ := hphase
    have hlt : ∀ i ∈ pending, i < jobs.length := by
      intro i hi
      have hi' := hperm.mem_iff.1 hi
      rw [Pool.unfinished, List.mem_filter, List.mem_range, hsub] at hi'
      exact hi'.1
    rw [hsub] at hdone
    refine { h with phase := ⟨hsub, hlt, ?_⟩ }
    obtain hall | ⟨k, hk, hf, hfails⟩ := hdone
    · refine .inl fun i hi => ?_
      rw [show p.task i = .finished from hall i hi]
      rfl
    · exact .inr ⟨k, hk, hfails, h.decided_of_failed hc hf⟩
  | cancel i pending hp ht =>
    rw [hp] at hphase
    obtain ⟨hsub, hlt, hd⟩ := hphase
    have hi : i < p.submitted := hsub ▸ hlt i (by simp)
    have hkept : ∀ j, (p.task j).hasStarted = true → (p.set i .cancelled).task j = p.task j := by
      intro j hj
      rw [Pool.task_set, if_neg]
      rintro rfl
      simp [ht, Task.hasStarted] at hj
    refine { submitted_le := h.submitted_le, outside := ?_, inOrder := ?_
             written := h.written_set (by rw [ht]; rfl), writers := h.writers
             phase := ⟨hsub, fun j hj => hlt j (by simp [hj]), hd.mono fun j hj => ?_⟩ }
    · intro j hj
      change (p.set i .cancelled).task j = _
      rw [Pool.task_set, if_neg (by simp at hj; omega)]
      exact h.outside j hj
    · intro j k hjk hk
      change (p.set i .cancelled).task j ≠ _
      replace hk : ((p.set i .cancelled).task k).hasStarted = true := hk
      rw [Pool.task_set] at hk ⊢
      split
      · simp
      · split at hk
        · simp [Task.hasStarted] at hk
        · exact h.inOrder j k hjk hk
    · change ((p.set i .cancelled).task j).hasStarted = true
      rw [hkept j hj]
      exact hj
  | pass i pending hp =>
    rw [hp] at hphase
    exact { h with phase := ⟨hphase.1, fun j hj => hphase.2.1 j (by simp [hj]), hphase.2.2⟩ }
  | leave hp hn =>
    rw [hp] at hphase
    refine { h with phase := ⟨hphase.1, hphase.2.2.mono fun i hi => ?_⟩ }
    have hr := hn i
    cases ht : p.task i <;> simp_all [Task.hasStarted, Task.isRunning]

end Inv

end ParallelTests.Dispatch
