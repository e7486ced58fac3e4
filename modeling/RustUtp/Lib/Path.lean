/-! # Paths of a step relation, and runs of a step function

    `Steps R l a b`: steps of `R` lead from `a` to `b`, and the labels along the
    way concatenate to `l`.  An invariant that every step keeps holds at the
    end of every path.  `AvoidingRun step bad a b`: the partial function `step`
    leads from `a` to `b`, and no operation on the way is bad in the state it
    meets.  The invariant rule of such runs asks for good operations only. -/

namespace LabelledPath

/-! ## Labelled paths -/

variable {α β : Type} {R : List β → α → α → Prop}

inductive Steps (R : List β → α → α → Prop) : List β → α → α → Prop where
  | refl (a : α) : Steps R [] a a
  | tail {l l' : List β} {a b c : α} : Steps R l a b → R l' b c → Steps R (l ++ l') a c

namespace Steps

/-- One step is a path. -/
theorem single {l : List β} {a b : α} (h : R l a b) : Steps R l a b := by
  have := Steps.tail (Steps.refl (R := R) a) h
  rwa [List.nil_append] at this

theorem trans {l l' : List β} {a b c : α} (h : Steps R l a b) (h' : Steps R l' b c) :
    Steps R (l ++ l') a c := by
  induction h' with
  | refl _ => rwa [List.append_nil]
  | tail _ hstep ih =>
      rw [← List.append_assoc]
      exact (ih h).tail hstep

/-- Two silent paths in a row. -/
theorem silent {a b c : α} (h : Steps R [] a b) (h' : Steps R [] b c) : Steps R [] a c :=
  h.trans h'

/-- **THE INVARIANT RULE**: what every step keeps, every path keeps. -/
theorem invariant {P : α → Prop} (hstep : ∀ l a b, R l a b → P a → P b)
    {l : List β} {a b : α} (h : Steps R l a b) : P a → P b := by
  induction h with
  | refl _ => exact id
  | tail _ hs ih => intro ha; exact hstep _ _ _ hs (ih ha)

/-- A relation that contains every step and is reflexive and transitive
    contains every path. -/
theorem lift {S : α → α → Prop} (hrefl : ∀ a, S a a)
    (htrans : ∀ a b c, S a b → S b c → S a c)
    (hstep : ∀ l a b, R l a b → S a b) {l : List β} {a b : α} (h : Steps R l a b) :
    S a b := by
  induction h with
  | refl a => exact hrefl a
  | tail _ hs ih => exact htrans _ _ _ ih (hstep _ _ _ hs)

/-- A path of one relation is one of any that contains it. -/
theorem mono {R' : List β → α → α → Prop} (hsub : ∀ l a b, R l a b → R' l a b)
    {l : List β} {a b : α} (h : Steps R l a b) : Steps R' l a b := by
  induction h with
  | refl a => exact .refl a
  | tail _ hs ih => exact ih.tail (hsub _ _ _ hs)

end Steps

/-! ## Runs that avoid something -/

variable {State Op : Type} {step : State → Op → Option State} {bad : State → Op → Prop}

/-- Operations one after another, none of which is bad in the state it meets. -/
inductive AvoidingRun (step : State → Op → Option State) (bad : State → Op → Prop) :
    State → State → Prop where
  | refl (s : State) : AvoidingRun step bad s s
  | step {s₀ s s' : State} (op : Op) (h : AvoidingRun step bad s₀ s) (hgood : ¬ bad s op)
      (hstep : step s op = some s') : AvoidingRun step bad s₀ s'

/-- **THE INVARIANT RULE** of such runs. -/
theorem AvoidingRun.invariant {P : State → Prop}
    (hkeep : ∀ s op s', ¬ bad s op → step s op = some s' → P s → P s')
    {s s' : State} (h : AvoidingRun step bad s s') : P s → P s' := by
  induction h with
  | refl => exact id
  | step op _ hgood hstep ih => exact fun hs => hkeep _ op _ hgood hstep (ih hs)

/-- A run that checks each operation against the state it meets. -/
def runChecked (step : State → Op → Option State) (ok : State → Op → Bool) (s : State) :
    List Op → Option State
  | [] => some s
  | op :: rest => if ok s op then (step s op).bind (fun s => runChecked step ok s rest) else none

/-- A run whose steps pass a check avoids what the check finds. -/
theorem AvoidingRun.checked {ok : State → Op → Bool} (hok : ∀ s op, ok s op = true → ¬ bad s op)
    {s₀ s' : State} (ops : List Op) :
    ∀ {s : State}, AvoidingRun step bad s₀ s → runChecked step ok s ops = some s' →
      AvoidingRun step bad s₀ s' := by
  induction ops with
  | nil =>
      intro s h hrun
      obtain rfl := Option.some.inj hrun
      exact h
  | cons op rest ih =>
      intro s h hrun
      obtain ⟨hgood, hrun⟩ := Option.ite_none_right_eq_some.mp hrun
      obtain ⟨s₁, hstep, hrest⟩ := Option.bind_eq_some_iff.mp hrun
      exact ih (h.step op (hok s op hgood) hstep) hrest

end LabelledPath
