
namespace Spreadsheet

variable {ε ε' α β : Type}

theorem bind_eq_ok {x : Except ε α} {f : α → Except ε β} {b : β} (h : x >>= f = .ok b) :
    ∃ a, x = .ok a ∧ f a = .ok b := by
  cases x with
  | error reason => cases h
  | ok a => exact ⟨a, rfl, h⟩

theorem bind_of_eq_ok {x : Except ε α} {f : α → Except ε β} {a : α} (h : x = .ok a) :
    x >>= f = f a := by
  rw [h]
  rfl

theorem map_eq_ok {x : Except ε α} {f : α → β} {b : β} (h : x.map f = .ok b) :
    ∃ a, x = .ok a ∧ f a = b := by
  cases x with
  | error reason => cases h
  | ok a => exact ⟨a, rfl, Except.ok.inj h⟩

theorem mapError_eq_ok {x : Except ε α} {f : ε → ε'} {a : α} (h : x.mapError f = .ok a) :
    x = .ok a := by
  cases x with
  | error reason => cases h
  | ok b => rw [Except.ok.inj h]

theorem foldlM_eq_ok {f : β → α → Except ε β} {motive : β → Prop} {l : List α} {b c : β}
    (h : l.foldlM f b = .ok c) (hb : motive b)
    (hstep : ∀ b, ∀ a ∈ l, ∀ c, motive b → f b a = .ok c → motive c) : motive c := by
  induction l generalizing b with
  | nil =>
      obtain rfl := Except.ok.inj h
      exact hb
  | cons a l ih =>
      rw [List.foldlM_cons] at h
      obtain ⟨next, hnext, h⟩ := bind_eq_ok h
      refine ih h (hstep b a List.mem_cons_self next hb hnext) ?_
      exact fun b other hother => hstep b other (List.mem_cons_of_mem _ hother)

/-- Both computations fail, or both succeed, and what they come to is related. -/
inductive Related (E : ε → ε' → Prop) (R : α → β → Prop) : Except ε α → Except ε' β → Prop
  | ok {a : α} {b : β} (h : R a b) : Related E R (.ok a) (.ok b)
  | error {reason : ε} {reason' : ε'} (h : E reason reason') :
      Related E R (.error reason) (.error reason')

theorem Related.imp {E : ε → ε' → Prop} {R S : α → β → Prop} {x : Except ε α} {y : Except ε' β}
    (h : Related E R x y) (himp : ∀ a b, R a b → S a b) : Related E S x y := by
  cases h with
  | ok h => exact .ok (himp _ _ h)
  | error h => exact .error h

theorem Related.map {E : ε → ε' → Prop} {R : α → β → Prop} {α' β' : Type} {S : α' → β' → Prop}
    {x : Except ε α} {y : Except ε' β} {f : α → α'} {g : β → β'} (h : Related E R x y)
    (hmap : ∀ a b, R a b → S (f a) (g b)) : Related E S (x.map f) (y.map g) := by
  cases h with
  | ok h => exact .ok (hmap _ _ h)
  | error h => exact .error h

theorem Related.bind {E : ε → ε' → Prop} {R : α → β → Prop} {α' β' : Type} {S : α' → β' → Prop}
    {x : Except ε α} {y : Except ε' β} {f : α → Except ε α'} {g : β → Except ε' β'}
    (h : Related E R x y) (hnext : ∀ a b, R a b → Related E S (f a) (g b)) :
    Related E S (x >>= f) (y >>= g) := by
  cases h with
  | ok h => exact hnext _ _ h
  | error h => exact .error h

theorem map_of_mapM_eq_ok {f : α → Except ε β} {l : List α} {results : List β}
    (h : l.mapM f = .ok results) : l.map f = results.map .ok := by
  induction l generalizing results with
  | nil =>
      obtain rfl := Except.ok.inj h
      rfl
  | cons a l ih =>
      rw [List.mapM_cons] at h
      obtain ⟨first, hfirst, h⟩ := bind_eq_ok h
      obtain ⟨rest, hrest, h⟩ := bind_eq_ok h
      obtain rfl := Except.ok.inj h
      rw [List.map_cons, List.map_cons, hfirst, ih hrest]

theorem mapM_eq_ok {f : α → Except ε β} {l : List α} {results : List β}
    (h : l.mapM f = .ok results) : ∀ b ∈ results, ∃ a ∈ l, f a = .ok b := by
  intro b hb
  have hmem : Except.ok b ∈ l.map f := map_of_mapM_eq_ok h ▸ List.mem_map_of_mem hb
  exact List.mem_map.mp hmem

theorem exists_of_mapM_eq_ok {f : α → Except ε β} {l : List α} {results : List β}
    (h : l.mapM f = .ok results) : ∀ a ∈ l, ∃ b, f a = .ok b := by
  intro a ha
  obtain ⟨b, -, hb⟩ := List.mem_map.mp (map_of_mapM_eq_ok h ▸ List.mem_map_of_mem ha)
  exact ⟨b, hb.symm⟩

end Spreadsheet
