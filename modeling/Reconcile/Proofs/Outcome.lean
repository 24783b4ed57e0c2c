import Mathlib.Data.List.Forall2

namespace Reconcile

variable {σ ε α β : Type} {world world' : σ}

/-- A sequence is run in the world that its first action leaves. -/
theorem run_bind (action : StateM σ α) (next : α → StateM σ β) (world : σ) :
    (action >>= next).run world = (next (action.run world).1).run (action.run world).2 :=
  rfl

/-- A sequence that ends well has a first step that ends well, and the rest is run with what came of
    it. -/
theorem exists_of_bind_ok {step : ExceptT ε (StateM σ) α} {next : α → ExceptT ε (StateM σ) β} {b : β}
    (hrun : (step >>= next).run.run world = (.ok b, world')) :
    ∃ a middle, step.run.run world = (.ok a, middle) ∧ (next a).run.run middle = (.ok b, world') := by
  change (let ending := step.run.run world
    (ExceptT.bindCont next ending.1).run ending.2) = _ at hrun
  generalize hstep : step.run.run world = ending at hrun
  obtain ⟨result, middle⟩ := ending
  cases result with
  | ok a => exact ⟨a, middle, rfl, hrun⟩
  | error error => cases hrun

theorem run_map (f : α → β) (step : ExceptT ε (StateM σ) α) (world : σ) :
    (f <$> step).run.run world =
      ((step.run.run world).1.map f, (step.run.run world).2) := by
  rw [ExceptT.run_map]
  rfl

theorem eq_of_lift_ok {action : StateM σ α} {a : α}
    (hrun : (liftM action : ExceptT ε (StateM σ) α).run.run world = (.ok a, world')) :
    action.run world = (a, world') := by
  change (let ending := action.run world
    ((Except.ok ending.1 : Except ε α), ending.2)) = _ at hrun
  generalize action.run world = ending at hrun ⊢
  cases hrun
  rfl

theorem eq_ok_of_toOption {ending : Except ε α × σ} {a : α}
    (hending : ending.1.toOption = some a) : ending = (.ok a, ending.2) := by
  obtain ⟨result, world⟩ := ending
  cases result with
  | ok b =>
    cases hending
    rfl
  | error error => cases hending

theorem exists_ok_of_toBool {ending : Except ε α} (hending : ending.toBool = true) :
    ∃ a, ending = .ok a := by
  cases ending with
  | ok a => exact ⟨a, rfl⟩
  | error error => cases hending

/-- Two operations end with the same error, or both with results that are related. -/
inductive EndsAlike (R : α → β → Prop) : Except ε α → Except ε β → Prop
  | error (error : ε) : EndsAlike R (.error error) (.error error)
  | ok {a : α} {b : β} (hab : R a b) : EndsAlike R (.ok a) (.ok b)

/-- Runs that end alike fail with the same error or end well with related results. -/
theorem EndsAlike.cases {R : α → β → Prop} {ending : Except ε α} {ending' : Except ε β}
    (hends : EndsAlike R ending ending') :
    (∃ error, ending = .error error ∧ ending' = .error error) ∨
      ∃ a b, ending = .ok a ∧ ending' = .ok b ∧ R a b := by
  cases hends with
  | error error => exact Or.inl ⟨error, rfl, rfl⟩
  | ok hab => exact Or.inr ⟨_, _, rfl, rfl, hab⟩

/-- Steps that end alike do so one behind the other. -/
theorem EndsAlike.bind {γ δ : Type} {R : α → β → Prop} {S : γ → δ → Prop} {step : Except ε α}
    {step' : Except ε β} {next : α → Except ε γ} {next' : β → Except ε δ}
    (hstep : EndsAlike R step step') (hnext : ∀ a b, R a b → EndsAlike S (next a) (next' b)) :
    EndsAlike S (step >>= next) (step' >>= next') := by
  cases hstep with
  | error error => exact .error error
  | ok hab => exact hnext _ _ hab

/-- Going through a list with steps that end alike gives related results, place by place. -/
theorem EndsAlike.mapM {γ : Type} {R : α → β → Prop} {f : γ → Except ε α} {g : γ → Except ε β}
    {l : List γ} (hsteps : ∀ c ∈ l, EndsAlike R (f c) (g c)) :
    EndsAlike (List.Forall₂ R) (l.mapM f) (l.mapM g) := by
  induction l with
  | nil => exact .ok .nil
  | cons c l ih =>
    obtain ⟨hc, hl⟩ := List.forall_mem_cons.mp hsteps
    rw [List.mapM_cons, List.mapM_cons]
    exact hc.bind fun a b hab => (ih hl).bind fun as bs hrest => .ok (.cons hab hrest)

theorem bind_eq_ok_iff {step : Except ε α} {next : α → Except ε β} {b : β} :
    step >>= next = .ok b ↔ ∃ a, step = .ok a ∧ next a = .ok b := by
  cases step with
  | error error => simp [bind, Except.bind]
  | ok a => simp [bind, Except.bind]

/-- What came of a list stands beside what it came of. -/
theorem forall₂_of_mapM_eq_ok {f : α → Except ε β} {l : List α} {l' : List β}
    (hmap : l.mapM f = .ok l') : List.Forall₂ (fun a b => f a = .ok b) l l' := by
  induction l generalizing l' with
  | nil =>
    cases hmap
    exact .nil
  | cons a l ih =>
    rw [List.mapM_cons] at hmap
    obtain ⟨b, hb, hmap⟩ := bind_eq_ok_iff.mp hmap
    obtain ⟨bs, hbs, hmap⟩ := bind_eq_ok_iff.mp hmap
    cases hmap
    exact .cons hb (ih hbs)

/-- Entries that are read as they were written are read back together. -/
theorem mapM_map_eq_ok {read : β → Except ε α} {write : α → β} {l : List α}
    (hread : ∀ a ∈ l, read (write a) = .ok a) : (l.map write).mapM read = .ok l := by
  induction l with
  | nil => rfl
  | cons a l ih =>
    obtain ⟨ha, hl⟩ := List.forall_mem_cons.mp hread
    rw [List.map_cons, List.mapM_cons, ha, ih hl]
    rfl

/-- Related lists look the same to functions that do not tell related entries apart. -/
theorem map_eq_of_forall₂ {α β γ : Type} {R : α → β → Prop} {f : α → γ} {g : β → γ} {l : List α}
    {l' : List β} (hl : List.Forall₂ R l l') (hR : ∀ a b, R a b → g b = f a) :
    l'.map g = l.map f := by
  induction hl with
  | nil => rfl
  | cons hab _ ih => rw [List.map_cons, List.map_cons, hR _ _ hab, ih]

/-- Relations between lists can be put together. -/
theorem forall₂_trans {α β γ : Type} {R : α → β → Prop} {S : β → γ → Prop} {T : α → γ → Prop}
    {l : List α} {l' : List β} {l'' : List γ} (hl : List.Forall₂ R l l') (hl' : List.Forall₂ S l' l'')
    (hT : ∀ a b c, R a b → S b c → T a c) : List.Forall₂ T l l'' := by
  induction hl generalizing l'' with
  | nil =>
    cases hl'
    exact .nil
  | cons hab _ ih =>
    cases hl' with
    | cons hbc hl' => exact .cons (hT _ _ _ hab hbc) (ih hl')

/-- A relation by way of something is one by way of a list. -/
theorem exists_between_of_forall₂ {α β γ : Type} {R : α → β → Prop} {S : β → γ → Prop} {l : List α}
    {l'' : List γ} (hl : List.Forall₂ (fun a c => ∃ b, R a b ∧ S b c) l l'') :
    ∃ l', List.Forall₂ R l l' ∧ List.Forall₂ S l' l'' := by
  induction hl with
  | nil => exact ⟨[], .nil, .nil⟩
  | cons hac _ ih =>
    obtain ⟨b, hab, hbc⟩ := hac
    obtain ⟨l', hl, hl'⟩ := ih
    exact ⟨b :: l', .cons hab hl, .cons hbc hl'⟩

/-- Everything in the second list stands beside something in the first one. -/
theorem exists_of_mem_of_forall₂ {α β : Type} {R : α → β → Prop} {l : List α} {l' : List β} {b : β}
    (hl : List.Forall₂ R l l') (hb : b ∈ l') : ∃ a ∈ l, R a b := by
  induction hl with
  | nil => cases hb
  | cons hab _ ih =>
    rcases List.mem_cons.mp hb with rfl | hb
    · exact ⟨_, List.mem_cons_self, hab⟩
    · obtain ⟨a, ha, hab⟩ := ih hb
      exact ⟨a, List.mem_cons_of_mem _ ha, hab⟩

/-- What holds of every result of a step holds of all results. -/
theorem forall_of_mapM_eq_ok {f : α → Except ε β} {p : β → Prop} (hf : ∀ a b, f a = .ok b → p b)
    {l : List α} {l' : List β} (hmap : l.mapM f = .ok l') : ∀ b ∈ l', p b := by
  intro b hb
  obtain ⟨a, -, ha⟩ := exists_of_mem_of_forall₂ (forall₂_of_mapM_eq_ok hmap) hb
  exact hf a b ha

/-- Lists with the same keys and related values look up related values. -/
theorem lookup_rel {α β γ : Type} [BEq α] {R : β → γ → Prop} {l : List (α × β)} {l' : List (α × γ)}
    (hl : List.Forall₂ (fun a b => b.1 = a.1 ∧ R a.2 b.2) l l') (key : α) :
    Option.Rel R (l.lookup key) (l'.lookup key) := by
  induction hl with
  | nil => exact .none
  | @cons a b _ _ hab _ ih =>
    obtain ⟨name, value⟩ := a
    obtain ⟨_, value'⟩ := b
    obtain ⟨rfl, hvalue⟩ := hab
    rw [List.lookup_cons, List.lookup_cons]
    cases key == _ with
    | true => exact .some hvalue
    | false => exact ih

/-- A place in two lists put together is a place in one of them. -/
theorem split_of_append_eq {α : Type} {early late first rest : List α} {a : α}
    (hsplit : early ++ late = first ++ a :: rest) :
    (∃ middle, early = first ++ a :: middle ∧ rest = middle ++ late) ∨
      ∃ second, first = early ++ second ∧ late = second ++ a :: rest := by
  obtain ⟨second, hfirst, hlate⟩ | ⟨second, hearly, hrest⟩ := List.append_eq_append_iff.mp hsplit
  · exact .inr ⟨second, hfirst, hlate⟩
  · cases second with
    | nil => exact .inr ⟨[], by simpa using hearly.symm, by simpa using hrest.symm⟩
    | cons other middle =>
      rw [List.cons_append] at hrest
      obtain ⟨rfl, rfl⟩ := List.cons.inj hrest
      exact .inl ⟨middle, hearly, rfl⟩

/-- Where a list splits at an entry that is not in its early part, it splits in the late part. -/
theorem exists_of_append_eq {α : Type} {early late first rest : List α} {a : α} (ha : a ∉ early)
    (hsplit : early ++ late = first ++ a :: rest) :
    ∃ second, first = early ++ second ∧ late = second ++ a :: rest := by
  obtain ⟨middle, hearly, -⟩ | hlate := split_of_append_eq hsplit
  · exact absurd (by simp [hearly]) ha
  · exact hlate

theorem eq_of_singleton_eq {α : Type} {a b : α} {first rest : List α}
    (hsplit : [a] = first ++ b :: rest) : b = a ∧ rest = [] := by
  cases first with
  | nil => simpa [eq_comm] using hsplit
  | cons head first => simp at hsplit

/-- Of every event that is an end, `post` holds together with the events behind it. -/
def Behind {α : Type} (isEnd : α → Prop) (post : α → List α → Prop) (events : List α) : Prop :=
  ∀ first event rest, events = first ++ event :: rest → isEnd event → post event rest

namespace Behind

variable {α : Type} {isEnd : α → Prop} {post post' : α → List α → Prop} {events late : List α}

theorem of_nil : Behind isEnd post [] := by
  intro first event rest hsplit
  simp at hsplit

theorem of_singleton {event : α} (hpost : isEnd event → post event []) :
    Behind isEnd post [event] := by
  intro first other rest hsplit hend
  obtain ⟨rfl, rfl⟩ := eq_of_singleton_eq hsplit
  exact hpost hend

/-- What stands behind an end may be weakened. -/
theorem imp (hbehind : Behind isEnd post events)
    (hpost : ∀ event rest, post event rest → post' event rest) : Behind isEnd post' events :=
  fun first event rest hsplit hend => hpost event rest (hbehind first event rest hsplit hend)

theorem not_isEnd (hbehind : Behind isEnd post events) (hpost : ∀ event rest, ¬ post event rest) :
    ∀ event ∈ events, ¬ isEnd event := by
  intro event hevent hend
  obtain ⟨first, rest, hsplit⟩ := List.append_of_mem hevent
  exact hpost event rest (hbehind first event rest hsplit hend)

theorem append (hlate : Behind isEnd post late) (hnone : ∀ event ∈ events, ¬ isEnd event) :
    Behind isEnd post (events ++ late) := by
  intro first event rest hsplit hend
  obtain ⟨second, -, hsecond⟩ := exists_of_append_eq (fun hevent => hnone event hevent hend) hsplit
  exact hlate second event rest hsecond hend

end Behind

end Reconcile
