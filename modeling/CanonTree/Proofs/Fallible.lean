namespace CanonTree

variable {ε ε' α β : Type} {x : Except ε α}

theorem bind_eq_ok {f : α → Except ε β} {b : β} :
    (x >>= f) = .ok b ↔ ∃ a, x = .ok a ∧ f a = .ok b := by
  cases x with
  | error e => simp [bind, Except.bind]
  | ok a => simp [bind, Except.bind]

theorem map_eq_ok {f : α → β} {b : β} : x.map f = .ok b ↔ ∃ a, x = .ok a ∧ f a = b := by
  cases x with
  | error e => simp [Except.map]
  | ok a => simp [Except.map]

theorem exists_ok_of_any {p : α → Bool} (h : x.toOption.any p = true) :
    ∃ a, x = .ok a ∧ p a = true := by
  cases x with
  | error e => cases h
  | ok a => exact ⟨a, rfl, h⟩

theorem exists_ok_ok_of_any {f : α → Except ε' β} {p : β → Bool}
    (h : x.toOption.any (fun a => (f a).toOption.any p) = true) :
    ∃ a b, x = .ok a ∧ f a = .ok b ∧ p b = true := by
  obtain ⟨a, ha, hfrom⟩ := exists_ok_of_any h
  obtain ⟨b, hb, hp⟩ := exists_ok_of_any hfrom
  exact ⟨a, b, ha, hb, hp⟩

end CanonTree
