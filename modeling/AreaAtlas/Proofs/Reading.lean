import Mathlib.Data.List.Basic

/-!
# Readers that may fail

A reader is described by two things that cannot fail: which inputs it accepts, and the value that it
gives for those.  The description of a reader that works through a list, or that hands its value on to
another one, is made of the descriptions of its parts, so a fault anywhere is seen to be a fault of the
whole, and nothing is lost in between.
-/

namespace AreaAtlas

/-- A reader succeeds on exactly the accepted inputs, and gives this value for them. -/
def ReadsAs {α β ε : Type} (read : α → Except ε β) (accepts : α → Prop) (value : α → β) : Prop :=
  ∀ a b, read a = .ok b ↔ accepts a ∧ b = value a

section Except

variable {α β ε ε' : Type}

theorem Except.bind_eq_ok_iff {x : Except ε α} {f : α → Except ε β} {b : β} :
    x >>= f = .ok b ↔ ∃ a, x = .ok a ∧ f a = .ok b := by
  cases x with
  | error e => simp [bind, Except.bind]
  | ok a => simp [bind, Except.bind]

theorem Except.bind_eq_error_iff {x : Except ε α} {f : α → Except ε β} {e : ε} :
    x >>= f = .error e ↔ x = .error e ∨ ∃ a, x = .ok a ∧ f a = .error e := by
  cases x with
  | error e' => simp [bind, Except.bind]
  | ok a => simp [bind, Except.bind]

theorem Except.map_eq_ok_iff {x : Except ε α} {f : α → β} {b : β} :
    x.map f = .ok b ↔ ∃ a, x = .ok a ∧ f a = b := by
  cases x with
  | error e => simp [Except.map]
  | ok a => simp [Except.map]

theorem Except.mapError_eq_ok_iff {x : Except ε α} {f : ε → ε'} {a : α} :
    x.mapError f = .ok a ↔ x = .ok a := by
  cases x with
  | error e => simp [Except.mapError]
  | ok a' => simp [Except.mapError]

/-- A list is read if every element of it is. -/
theorem Except.exists_mapM_eq_ok {f : α → Except ε β} {l : List α}
    (h : ∀ a ∈ l, ∃ b, f a = .ok b) : ∃ bs, l.mapM f = .ok bs := by
  induction l with
  | nil => exact ⟨[], rfl⟩
  | cons a l ih =>
    obtain ⟨b, hb⟩ := h a List.mem_cons_self
    obtain ⟨bs, hbs⟩ := ih fun a' ha' => h a' (List.mem_cons_of_mem _ ha')
    refine ⟨b :: bs, ?_⟩
    rw [List.mapM_cons, hb, hbs]
    rfl

/-- The outcome of a reader, with another value and another fault. -/
def Except.bimap (f : α → β) (k : ε → ε') (x : Except ε α) : Except ε' β :=
  (x.map f).mapError k

theorem Except.bimap_eq_ok_iff {f : α → β} {k : ε → ε'} {x : Except ε α} {b : β} :
    bimap f k x = .ok b ↔ ∃ a, x = .ok a ∧ f a = b := by
  rw [bimap, mapError_eq_ok_iff, map_eq_ok_iff]

/-- If the elements of two lists have outcomes that match, so have the lists. -/
theorem Except.mapM_map_eq_bimap {α' β' : Type} {read : α → Except ε β} {read' : α' → Except ε' β'}
    {g : α → α'} {f : β → β'} {k : ε → ε'} {l : List α}
    (h : ∀ a ∈ l, read' (g a) = bimap f k (read a)) :
    (l.map g).mapM read' = bimap (List.map f) k (l.mapM read) := by
  induction l with
  | nil => rfl
  | cons a l ih =>
    have hrest := ih fun a' ha' => h a' (List.mem_cons_of_mem _ ha')
    rw [List.map_cons, List.mapM_cons, List.mapM_cons, h a List.mem_cons_self, hrest]
    cases read a with
    | error e => rfl
    | ok b =>
      cases l.mapM read with
      | error e => rfl
      | ok bs => rfl

end Except

namespace ReadsAs

variable {α β γ ε : Type} {read : α → Except ε β} {accepts : α → Prop} {value : α → β}

/-- A list is read element by element, and the first fault ends it. -/
theorem mapM (h : ReadsAs read accepts value) :
    ReadsAs (List.mapM read) (fun l => ∀ a ∈ l, accepts a) (List.map value) := by
  intro l
  induction l with
  | nil =>
    intro r
    simp [pure, Except.pure, eq_comm]
  | cons a l ih =>
    intro r
    rw [List.mapM_cons, Except.bind_eq_ok_iff]
    simp only [Except.bind_eq_ok_iff, h a, ih, pure, Except.pure, Except.ok.injEq,
      List.forall_mem_cons, List.map_cons]
    constructor
    · rintro ⟨b, ⟨ha, rfl⟩, bs, ⟨hl, rfl⟩, rfl⟩
      exact ⟨⟨ha, hl⟩, rfl⟩
    · rintro ⟨⟨ha, hl⟩, rfl⟩
      exact ⟨_, ⟨ha, rfl⟩, _, ⟨hl, rfl⟩, rfl⟩

/-- A value is worked on after it has been read. -/
theorem map (h : ReadsAs read accepts value) (f : β → γ) :
    ReadsAs (fun a => (read a).map f) accepts (fun a => f (value a)) := by
  intro a c
  rw [Except.map_eq_ok_iff]
  constructor
  · rintro ⟨b, hb, rfl⟩
    obtain ⟨ha, rfl⟩ := (h a b).mp hb
    exact ⟨ha, rfl⟩
  · rintro ⟨ha, rfl⟩
    exact ⟨_, (h a _).mpr ⟨ha, rfl⟩, rfl⟩

end ReadsAs

end AreaAtlas
