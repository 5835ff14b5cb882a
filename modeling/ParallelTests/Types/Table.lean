import ParallelTests.Node.Address
import ParallelTests.Types.Basic

namespace ParallelTests

structure Place where
  file : Nat
  address : Address
  deriving DecidableEq, Repr

structure TypeTable where
  entries : List (Place × ResolvedType) := []
  deriving DecidableEq, Repr

namespace TypeTable

def typeOf? (t : TypeTable) (p : Place) : Option ResolvedType := t.entries.lookup p

def record (t : TypeTable) (p : Place) (type : ResolvedType) : TypeTable :=
  ⟨(p, type) :: t.entries.filter fun e => e.1 ≠ p⟩

def size (t : TypeTable) : Nat := t.entries.length

theorem typeOf?_record_self (t : TypeTable) (p : Place) (type : ResolvedType) :
    (t.record p type).typeOf? p = some type := by
  simp [typeOf?, record]

theorem lookup_filter_ne {p q : Place} (h : q ≠ p) (l : List (Place × ResolvedType)) :
    (l.filter fun e => e.1 ≠ p).lookup q = l.lookup q := by
  induction l with
  | nil => rfl
  | cons e l ih =>
    obtain ⟨k, v⟩ := e
    by_cases hk : k = p
    · subst hk
      simpa [List.lookup_cons, beq_eq_false_iff_ne.2 h] using ih
    · by_cases hq : q = k
      · simp [hk, hq]
      · simpa [hk, List.lookup_cons, beq_eq_false_iff_ne.2 hq] using ih

theorem typeOf?_record_of_ne (t : TypeTable) {p q : Place} (type : ResolvedType) (h : q ≠ p) :
    (t.record p type).typeOf? q = t.typeOf? q := by
  have := lookup_filter_ne h t.entries
  simpa [typeOf?, record, List.lookup_cons, beq_eq_false_iff_ne.2 h] using this

end TypeTable

end ParallelTests
