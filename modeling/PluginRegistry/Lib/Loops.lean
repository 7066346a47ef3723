namespace PluginRegistry.Lib

section
variable {A S G E : Type} {step : S → A → Except E S}

theorem foldlM_cons_ok {s t : S} {a : A} {l : List A} (h : (a :: l).foldlM step s = .ok t) :
    ∃ s', step s a = .ok s' ∧ l.foldlM step s' = .ok t := by
  rw [List.foldlM_cons] at h
  cases hs : step s a with
  | error e =>
    rw [hs] at h
    cases h
  | ok s' =>
    rw [hs] at h
    exact ⟨s', rfl, h⟩

/-- What holds of the state and of a fold over the steps taken holds at the end. -/
theorem foldlM_keeps (ghost : G → A → G) (inv : S → G → Prop) {l : List A}
    (hstep : ∀ a ∈ l, ∀ s g s', inv s g → step s a = .ok s' → inv s' (ghost g a)) {s t : S} {g : G}
    (hs : inv s g) (h : l.foldlM step s = .ok t) : inv t (l.foldl ghost g) := by
  induction l generalizing s g with
  | nil =>
    cases h
    exact hs
  | cons a l ih =>
    obtain ⟨s', ha, hrest⟩ := foldlM_cons_ok h
    have hnext := hstep a List.mem_cons_self s g s' hs ha
    exact ih (fun b hb => hstep b (List.mem_cons_of_mem a hb)) hnext hrest

/-- A loop that ends has taken every step. -/
theorem foldlM_steps {s t : S} {l : List A} (h : l.foldlM step s = .ok t) {a : A} (ha : a ∈ l) :
    ∃ before after, step before a = .ok after := by
  induction l generalizing s with
  | nil => cases ha
  | cons b l ih =>
    obtain ⟨s', hstep', hrest⟩ := foldlM_cons_ok h
    rcases List.mem_cons.mp ha with rfl | ha
    · exact ⟨s, s', hstep'⟩
    · exact ih hrest ha

/-- A loop whose steps cannot fail ends. -/
theorem foldlM_ends {l : List A} (h : ∀ a ∈ l, ∀ s, ∃ s', step s a = .ok s') (s : S) :
    ∃ t, l.foldlM step s = .ok t := by
  induction l generalizing s with
  | nil => exact ⟨s, rfl⟩
  | cons a l ih =>
    obtain ⟨s', hs'⟩ := h a List.mem_cons_self s
    obtain ⟨t, ht⟩ := ih (fun b hb => h b (List.mem_cons_of_mem a hb)) s'
    refine ⟨t, ?_⟩
    rw [List.foldlM_cons, hs']
    exact ht

end

/-- Keeping the latest element with a property keeps the last one. -/
theorem foldl_latest {A : Type} (p : A → Bool) (l : List A) (seen : Option A) :
    l.foldl (fun latest a => if p a then some a else latest) seen =
      ((l.filter p).getLast?).or seen := by
  induction l generalizing seen with
  | nil => rfl
  | cons a l ih =>
    rw [List.foldl_cons, ih]
    cases ha : p a with
    | true =>
      rw [List.filter_cons_of_pos ha, List.getLast?_cons]
      cases (l.filter p).getLast? <;> simp
    | false =>
      rw [List.filter_cons_of_neg (by simp [ha])]
      simp

end PluginRegistry.Lib
