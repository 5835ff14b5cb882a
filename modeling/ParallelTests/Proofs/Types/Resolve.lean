import ParallelTests.Proofs.Types.Meaning

/-!
Resolving a type expression finds what it means. The aliases that are being followed do not change
that: one of them is met again only where the steps from the expression go round in a circle.
-/

namespace ParallelTests

def Place.child (p : Place) (i : Nat) : Place := ⟨p.file, p.address ++ [i]⟩

lemma TypeTable.isSome_record {t : TypeTable} {p q : Place} {type : ResolvedType}
    (h : (t.typeOf? p).isSome = true) : ((t.record q type).typeOf? p).isSome = true := by
  by_cases hp : p = q
  · rw [hp, typeOf?_record_self]
    rfl
  · rwa [typeOf?_record_of_ne _ _ hp]

namespace Types

def At (files : List Node) (p : Place) (file n : Node) : Prop :=
  files[p.file]? = some file ∧ file.at? p.address = some n

namespace At

variable {files : List Node} {p : Place} {file file' n n' c : Node} {i : Nat}

lemma unique (h : At files p file n) (h' : At files p file' n') : file' = file ∧ n' = n := by
  obtain rfl := Option.some.inj (h'.1.symm.trans h.1)
  exact ⟨rfl, Option.some.inj (h'.2.symm.trans h.2)⟩

lemma child (h : At files p file n) (hc : n.children[i]? = some c) :
    At files (p.child i) file c := by
  refine ⟨h.1, ?_⟩
  rw [Place.child, Node.at?_append, h.2, Option.bind_some, Node.at?_cons, hc]
  rfl

end At

variable {package : String} {files : List Node} {local_ : List Declared} {scope : Scope}
  {seen : List String} {place : Place} {e file : Node} {table : TypeTable}

def settle (place : Place) : Option ResolvedType × TypeTable → Option ResolvedType × TypeTable
  | (some type, table) => (some type, table.record place type)
  | (none, table) => (none, table)

section Steps

lemma resolve_star {x : Node} (h : e.shape = .star x) :
    resolve package local_ scope seen place e table =
      settle place ((resolve package local_ scope seen (place.child 0) x table).1.map .pointer,
        (resolve package local_ scope seen (place.child 0) x table).2) := by
  obtain ⟨span, layout, pieces, shape⟩ := e
  obtain rfl : shape = _ := h
  rw [resolve]
  rfl

lemma resolve_selector {x sel : Node} (h : e.shape = .selector x sel) :
    resolve package local_ scope seen place e table =
      settle place (x.ident?.bind fun qualifier => sel.ident?.bind fun name =>
        (scope.package? qualifier).map (.named · name), table) := by
  obtain ⟨span, layout, pieces, shape⟩ := e
  obtain rfl : shape = _ := h
  rw [resolve]
  cases x.ident? <;> cases sel.ident? <;> rfl

lemma resolve_declared {name : String} {d : Declared} (h : e.shape = .ident name)
    (hd : lookup? local_ name = some d) (ha : d.isAlias = false) :
    resolve package local_ scope seen place e table =
      settle place (some (.named package name), table) := by
  obtain ⟨span, layout, pieces, shape⟩ := e
  obtain rfl : shape = _ := h
  rw [resolve]
  refine congrArg (settle place) ?_
  split
  · next d' hd' =>
    obtain rfl := Option.some.inj (hd.symm.trans hd')
    simp [ha]
  · next hd' => cases hd.symm.trans hd'

lemma resolve_seen {name : String} {d : Declared} (h : e.shape = .ident name)
    (hd : lookup? local_ name = some d) (ha : d.isAlias = true) (hn : name ∈ seen) :
    resolve package local_ scope seen place e table = settle place (none, table) := by
  obtain ⟨span, layout, pieces, shape⟩ := e
  obtain rfl : shape = _ := h
  rw [resolve]
  refine congrArg (settle place) ?_
  split
  · next d' hd' =>
    obtain rfl := Option.some.inj (hd.symm.trans hd')
    simp [ha, hn]
  · next hd' => cases hd.symm.trans hd'

lemma resolve_alias {name : String} {d : Declared} (h : e.shape = .ident name)
    (hd : lookup? local_ name = some d) (ha : d.isAlias = true) (hn : name ∉ seen) :
    resolve package local_ scope seen place e table =
      settle place (resolve package local_ d.scope (name :: seen) d.place d.type table) := by
  obtain ⟨span, layout, pieces, shape⟩ := e
  obtain rfl : shape = _ := h
  rw [resolve]
  refine congrArg (settle place) ?_
  split
  · next d' hd' =>
    obtain rfl := Option.some.inj (hd.symm.trans hd')
    simp [ha, hn]
  · next hd' => cases hd.symm.trans hd'

def outside? (scope : Scope) (name : String) : Option ResolvedType :=
  match scope.dots with
  | [path] => some (.named path name)
  | _ => if name ∈ predeclared then some (.basic name) else none

lemma resolve_undeclared {name : String} (h : e.shape = .ident name)
    (hd : lookup? local_ name = none) :
    resolve package local_ scope seen place e table = settle place (outside? scope name, table) := by
  obtain ⟨span, layout, pieces, shape⟩ := e
  obtain rfl : shape = _ := h
  rw [resolve]
  refine congrArg (settle place) ?_
  split
  · next d' hd' => cases hd.symm.trans hd'
  · unfold outside?
    rcases scope.dots with _ | ⟨path, _ | _⟩ <;> rfl

lemma resolve_other (hs : ∀ x, e.shape ≠ .star x) (hq : ∀ x sel, e.shape ≠ .selector x sel)
    (hi : ∀ name, e.shape ≠ .ident name) :
    resolve package local_ scope seen place e table = settle place (none, table) := by
  obtain ⟨span, layout, pieces, shape⟩ := e
  cases shape with
  | star x => exact absurd rfl (hs x)
  | selector x sel => exact absurd rfl (hq x sel)
  | ident name => exact absurd rfl (hi name)
  | _ =>
    rw [resolve]
    · rfl
    all_goals simp

end Steps

structure Sound (package : String) (files : List Node) (table : TypeTable) : Prop where
  means : ∀ p type, table.typeOf? p = some type →
    ∃ file e, At files p file e ∧ Means package files file e type
  pointee : ∀ p file e x, At files p file e → e.shape = .star x →
    (table.typeOf? p).isSome = true → (table.typeOf? (p.child 0)).isSome = true

def Grows (t t' : TypeTable) : Prop :=
  ∀ p, (t.typeOf? p).isSome = true → (t'.typeOf? p).isSome = true

lemma Sound.record {type : ResolvedType} (h : Sound package files table)
    (hat : At files place file e) (hm : Means package files file e type)
    (hp : ∀ x, e.shape = .star x → (table.typeOf? (place.child 0)).isSome = true) :
    Sound package files (table.record place type) := by
  constructor
  · intro p type' ht
    by_cases hplace : p = place
    · subst hplace
      rw [TypeTable.typeOf?_record_self] at ht
      obtain rfl := Option.some.inj ht
      exact ⟨file, e, hat, hm⟩
    · rw [TypeTable.typeOf?_record_of_ne _ _ hplace] at ht
      exact h.means p type' ht
  · intro p file' e' x hat' hx ht
    refine TypeTable.isSome_record ?_
    by_cases hplace : p = place
    · subst hplace
      obtain ⟨rfl, rfl⟩ := hat.unique hat'
      exact hp x hx
    · rw [TypeTable.typeOf?_record_of_ne _ _ hplace] at ht
      exact h.pointee p file' e' x hat' hx ht

structure Resolved (package : String) (files : List Node) (file : Node) (seen : List String)
    (place : Place) (e : Node) (table : TypeTable) (r : Option ResolvedType × TypeTable) : Prop where
  sound : ∀ type, r.1 = some type → Means package files file e type
  complete : ∀ type, Means package files file e type → r.1 = some type ∨
    ∃ name ∈ seen, ∃ g n, n.shape = .ident name ∧
      Relation.ReflTransGen (Rests files) (file, e) (g, n)
  grows : Grows table r.2
  recorded : r.1.isSome = true → (r.2.typeOf? place).isSome = true
  kept : At files place file e → Sound package files table → Sound package files r.2

namespace Resolved

variable {r : Option ResolvedType × TypeTable}

lemma settle (hs : ∀ type, r.1 = some type → Means package files file e type)
    (hc : ∀ type, Means package files file e type → r.1 = some type ∨
      ∃ name ∈ seen, ∃ g n, n.shape = .ident name ∧
        Relation.ReflTransGen (Rests files) (file, e) (g, n))
    (hg : Grows table r.2)
    (hk : At files place file e → Sound package files table → Sound package files r.2)
    (hp : ∀ x, e.shape = .star x → r.1.isSome = true →
      (r.2.typeOf? (place.child 0)).isSome = true) :
    Resolved package files file seen place e table (Types.settle place r) := by
  obtain ⟨_ | type, after⟩ := r
  · exact ⟨hs, hc, hg, by simp [Types.settle], hk⟩
  · refine ⟨hs, hc, fun p ht => TypeTable.isSome_record (hg p ht), fun _ => ?_, fun hat ht => ?_⟩
    · simp [Types.settle, TypeTable.typeOf?_record_self]
    · exact (hk hat ht).record hat (hs type rfl) fun x hx => hp x hx rfl

lemma direct {o : Option ResolvedType} (hx : ∀ x, e.shape ≠ .star x)
    (h : ∀ type, o = some type ↔ Means package files file e type) :
    Resolved package files file seen place e table (Types.settle place (o, table)) :=
  settle (fun type => (h type).1) (fun type hm => .inl ((h type).2 hm)) (fun _ => id)
    (fun _ => id) fun x he => absurd he (hx x)

lemma star {x : Node} (he : e.shape = .star x)
    (h : Resolved package files file seen (place.child 0) x table r) :
    Resolved package files file seen place e table (Types.settle place (r.1.map .pointer, r.2)) := by
  refine settle (fun type ht => ?_) (fun type hm => ?_) h.grows (fun hat => h.kept ?_)
    fun x' _ ht => h.recorded (by simpa using ht)
  · obtain ⟨elem, helem, rfl⟩ := Option.map_eq_some_iff.1 ht
    exact .pointer he (h.sound elem helem)
  · cases hm with
    | pointer he' hm =>
      obtain rfl := Shape.star.inj (he.symm.trans he')
      rcases h.complete _ hm with hr | ⟨name, hn, g, n, hi, hsteps⟩
      · exact .inl (by rw [hr]; rfl)
      · exact .inr ⟨name, hn, g, n, hi, .head (.star he) hsteps⟩
    | imported he' | declared he' | aliased he' | dotImported he' | predeclared he' =>
      cases he.symm.trans he'
  · exact hat.child (by rw [Node.children, he]; rfl)

lemma circular {name : String} (he : e.shape = .ident name) (hn : name ∈ seen) :
    Resolved package files file seen place e table (Types.settle place (none, table)) :=
  settle (by simp) (fun _ _ => .inr ⟨name, hn, file, e, he, .refl⟩) (fun _ => id) (fun _ => id)
    (by simp)

lemma aliased {name : String} {d : Declared} {t : Definition} (he : e.shape = .ident name)
    (hd : Defines files name t) (hst : Stands files d t) (ha : t.isAlias = true)
    (h : Resolved package files t.file (name :: seen) d.place d.type table r) :
    Resolved package files file seen place e table (Types.settle place r) := by
  have hstep : Rests files (file, e) (t.file, t.type) := .aliased he hd ha
  rw [hst.type] at h
  refine settle (fun type ht => .aliased he hd ha (h.sound type ht)) (fun type hm => ?_) h.grows
    (fun _ => h.kept ⟨hst.file_at, hst.type_at⟩) fun x hx => by cases he.symm.trans hx
  cases hm with
  | aliased he' hd' _ hm =>
    obtain rfl := Shape.ident.inj (he.symm.trans he')
    obtain rfl := hd'.unique hd
    rcases h.complete type hm with hr | ⟨found, hn, g, n, hi, hsteps⟩
    · exact .inl hr
    · rcases List.mem_cons.1 hn with rfl | hn
      · -- the alias rests on itself, which then means nothing
        have hcycle : Relation.TransGen (Rests files) (t.file, t.type) (t.file, t.type) :=
          .tail' hsteps (.aliased hi hd ha)
        exact absurd hcycle (not_transGen_of_acc hm.acc)
      · exact .inr ⟨found, hn, g, n, hi, .head hstep hsteps⟩
  | declared he' hd' ha' =>
    obtain rfl := Shape.ident.inj (he.symm.trans he')
    obtain rfl := hd.unique hd'
    cases ha.symm.trans ha'
  | pointer he' | imported he' => cases he.symm.trans he'
  | dotImported he' hn | predeclared he' hn =>
    obtain rfl := Shape.ident.inj (he.symm.trans he')
    exact absurd hd.mem.2 (hn _ hd.mem.1)

end Resolved

lemma outside?_eq_some_iff {name : String} {type : ResolvedType} (he : e.shape = .ident name)
    (hn : ∀ d ∈ definitions files, d.name ≠ name) :
    outside? (.ofFile file) name = some type ↔ Means package files file e type := by
  rw [outside?, ofFile_eq]
  dsimp only
  constructor
  · intro h
    split at h
    · next path hd =>
      obtain rfl := Option.some.inj h
      exact .dotImported he hn hd
    · next hd =>
      split at h
      · next hp =>
        obtain rfl := Option.some.inj h
        refine .predeclared he hn (fun hlen => ?_) hp
        obtain ⟨path, hpath⟩ := List.length_eq_one_iff.1 hlen
        exact hd path hpath
      · cases h
  · intro h
    cases h with
    | dotImported he' _ hd =>
      obtain rfl := Shape.ident.inj (he.symm.trans he')
      rw [hd]
    | predeclared he' _ hd hp =>
      obtain rfl := Shape.ident.inj (he.symm.trans he')
      split
      · next path hpath => simp [hpath] at hd
      · rw [if_pos hp]
    | declared he' hd | aliased he' hd =>
      obtain rfl := Shape.ident.inj (he.symm.trans he')
      exact absurd hd.mem.2 (hn _ hd.mem.1)
    | pointer he' | imported he' => cases he.symm.trans he'

lemma declared_iff {name : String} {d : Definition} {type : ResolvedType}
    (he : e.shape = .ident name) (hd : Defines files name d) (ha : d.isAlias = false) :
    some (.named package name) = some type ↔ Means package files file e type := by
  constructor
  · intro h
    obtain rfl := Option.some.inj h
    exact .declared he hd ha
  · intro h
    cases h with
    | declared he' =>
      obtain rfl := Shape.ident.inj (he.symm.trans he')
      rfl
    | aliased he' hd' ha' =>
      obtain rfl := Shape.ident.inj (he.symm.trans he')
      obtain rfl := hd.unique hd'
      cases ha.symm.trans ha'
    | dotImported he' hn | predeclared he' hn =>
      obtain rfl := Shape.ident.inj (he.symm.trans he')
      exact absurd hd.mem.2 (hn _ hd.mem.1)
    | pointer he' | imported he' => cases he.symm.trans he'

lemma selector_iff {x sel : Node} {type : ResolvedType} (he : e.shape = .selector x sel) :
    (x.ident?.bind fun qualifier => sel.ident?.bind fun name =>
      ((Scope.ofFile file).package? qualifier).map (.named · name)) = some type ↔
      Means package files file e type := by
  simp only [Option.bind_eq_some_iff, Option.map_eq_some_iff, package?_eq_some_iff,
    Node.ident?_eq_some_iff]
  constructor
  · rintro ⟨qualifier, hx, name, hs, path, hi, rfl⟩
    exact .imported he hx hs hi
  · intro h
    cases h with
    | imported he' hx hs hi =>
      obtain ⟨rfl, rfl⟩ := Shape.selector.inj (he.symm.trans he')
      exact ⟨_, hx, _, hs, _, hi, rfl⟩
    | pointer he' | declared he' | aliased he' | dotImported he' | predeclared he' =>
      cases he.symm.trans he'

theorem resolved_resolve (package : String) (files : List Node) (file : Node) (seen : List String)
    (place : Place) (e : Node) (table : TypeTable) :
    Resolved package files file seen place e table
      (resolve package (declared files) (.ofFile file) seen place e table) := by
  induction hm : (unseen (declared files) seen).length * heaviest (declared files) + e.weight
    using Nat.strongRecOn generalizing file seen place e table with
  | ind m ih =>
    subst hm
    cases he : e.shape with
    | star x =>
      rw [resolve_star he]
      refine .star he (ih _ ?_ _ _ _ _ _ rfl)
      have hx : x ∈ e.children := by simp [Node.children, he, Shape.children]
      have := Node.weight_lt_of_mem_children hx
      omega
    | selector x sel =>
      rw [resolve_selector he]
      exact .direct (by simp [he]) fun type => selector_iff he
    | ident name =>
      rcases lookup?_cases files name with ⟨hnone, hn⟩ | ⟨d, t, hd, ht, hst⟩
      · rw [resolve_undeclared he hnone]
        exact .direct (by simp [he]) fun type => outside?_eq_some_iff he hn
      · cases ha : t.isAlias with
        | false =>
          rw [resolve_declared he hd (hst.isAlias.trans ha)]
          exact .direct (by simp [he]) fun type => declared_iff he ht ha
        | true =>
          by_cases hn : name ∈ seen
          · rw [resolve_seen he hd (hst.isAlias.trans ha) hn]
            exact .circular he hn
          · rw [resolve_alias he hd (hst.isAlias.trans ha) hn]
            have := alias_decreases hd hn
            refine .aliased he ht hst ha ?_
            rw [hst.scope]
            exact ih _ (by omega) _ _ _ _ _ rfl
    | _ =>
      rw [resolve_other (by simp [he]) (by simp [he]) (by simp [he])]
      refine .direct (by simp [he]) fun type => ⟨by simp, fun h => ?_⟩
      cases h with
      | pointer he' | imported he' | declared he' | aliased he' | dotImported he'
      | predeclared he' => cases he.symm.trans he'

end Types

end ParallelTests
