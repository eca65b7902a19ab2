import Tamga.Library.Interaction

namespace Library.Layering

open Library.Interaction
open Library.Interaction.Prog

variable {Op Op' : Type} {Reply : Op → Type} {Reply' : Op' → Type} {α β ε : Type}

/-- Every exchange replaced by exchanges that it stands for. -/
inductive Expands (stands : Event Op Reply → List (Event Op' Reply') → Prop) :
    List (Event Op Reply) → List (Event Op' Reply') → Prop
  | nil : Expands stands [] []
  | cons {event : Event Op Reply} {tries lower : List (Event Op' Reply')}
      {upper : List (Event Op Reply)} (h : stands event tries)
      (rest : Expands stands upper lower) : Expands stands (event :: upper) (tries ++ lower)

section Expands

variable {stands : Event Op Reply → List (Event Op' Reply') → Prop} {event : Event Op Reply}
  {upper front back : List (Event Op Reply)} {lower : List (Event Op' Reply')}

@[simp] theorem expands_nil_iff : Expands stands [] lower ↔ lower = [] := by
  constructor
  · rintro ⟨⟩
    rfl
  · rintro rfl
    exact .nil

theorem expands_cons_iff : Expands stands (event :: upper) lower ↔
    ∃ tries rest, lower = tries ++ rest ∧ stands event tries ∧ Expands stands upper rest := by
  constructor
  · rintro ⟨⟩
    exact ⟨_, _, rfl, ‹_›, ‹_›⟩
  · rintro ⟨tries, rest, rfl, h, hrest⟩
    exact .cons h hrest

theorem expands_singleton_iff : Expands stands [event] lower ↔ stands event lower := by
  simp [expands_cons_iff]

theorem expands_append_iff : Expands stands (front ++ back) lower ↔
    ∃ lowerFront lowerBack, lower = lowerFront ++ lowerBack ∧
      Expands stands front lowerFront ∧ Expands stands back lowerBack := by
  induction front generalizing lower with
  | nil => simp
  | cons event front ih =>
      simp only [List.cons_append, expands_cons_iff, ih]
      constructor
      · rintro ⟨tries, _, rfl, h, lowerFront, lowerBack, rfl, hfront, hback⟩
        exact ⟨tries ++ lowerFront, lowerBack, (List.append_assoc ..).symm,
          ⟨tries, lowerFront, rfl, h, hfront⟩, hback⟩
      · rintro ⟨_, lowerBack, rfl, ⟨tries, lowerFront, rfl, h, hfront⟩, hback⟩
        exact ⟨tries, lowerFront ++ lowerBack, List.append_assoc .., h, lowerFront, lowerBack, rfl,
          hfront, hback⟩

end Expands

/-- What the lower level returns in a run, the upper one returns in a run that expands to
it, and the other way round. -/
def Layers (stands : Event Op Reply → List (Event Op' Reply') → Prop)
    (p : Prog Op' Reply' α) (q : Prog Op Reply α) : Prop :=
  ∀ lower value, Steps p lower (.ret value) ↔
    ∃ upper, Expands stands upper lower ∧ Steps q upper (.ret value)

section Rules

variable {stands : Event Op Reply → List (Event Op' Reply') → Prop}

theorem layers_ret (value : α) : Layers stands (.ret value) (.ret value) := by
  intro lower value'
  simp only [steps_ret_iff]
  constructor
  · rintro ⟨rfl, ⟨⟩⟩
    exact ⟨[], .nil, rfl, rfl⟩
  · rintro ⟨upper, hexpands, rfl, ⟨⟩⟩
    exact ⟨expands_nil_iff.mp hexpands, rfl⟩

theorem layers_stop : Layers stands (.stop : Prog Op' Reply' α) .stop := by
  intro lower value
  simp only [steps_stop_iff]
  constructor
  · rintro ⟨-, ⟨⟩⟩
  · rintro ⟨upper, -, -, ⟨⟩⟩

theorem Layers.bind {p : Prog Op' Reply' α} {q : Prog Op Reply α}
    {f : α → Prog Op' Reply' β} {g : α → Prog Op Reply β} (h : Layers stands p q)
    (hnext : ∀ a, Layers stands (f a) (g a)) : Layers stands (p.bind f) (q.bind g) := by
  intro lower value
  constructor
  · intro hsteps
    obtain ⟨a, front, back, rfl, hfront, hback⟩ := hsteps.of_bind_ret
    obtain ⟨upperFront, hexpands, hq⟩ := (h front a).mp hfront
    obtain ⟨upperBack, hexpands', hg⟩ := (hnext a back value).mp hback
    exact ⟨upperFront ++ upperBack,
      expands_append_iff.mpr ⟨front, back, rfl, hexpands, hexpands'⟩, hq.bind hg⟩
  · rintro ⟨upper, hexpands, hsteps⟩
    obtain ⟨a, front, back, rfl, hfront, hback⟩ := hsteps.of_bind_ret
    obtain ⟨lowerFront, lowerBack, rfl, hexpands, hexpands'⟩ := expands_append_iff.mp hexpands
    exact ((h lowerFront a).mpr ⟨front, hexpands, hfront⟩).bind
      ((hnext a lowerBack value).mpr ⟨back, hexpands', hback⟩)

theorem Layers.andThen {p : Prog Op' Reply' (Except ε α)} {q : Prog Op Reply (Except ε α)}
    {f : α → Prog Op' Reply' (Except ε β)} {g : α → Prog Op Reply (Except ε β)}
    (h : Layers stands p q) (hnext : ∀ a, Layers stands (f a) (g a)) :
    Layers stands (p.andThen f) (q.andThen g) := by
  refine h.bind fun outcome => ?_
  cases outcome with
  | ok a => exact hnext a
  | error e => exact layers_ret _

end Rules

theorem layers_ask {stands : Event Op Reply → List (Event Op Reply) → Prop} {op : Op}
    {next next' : Reply op → Prog Op Reply α}
    (hop : ∀ reply tries, stands ⟨op, reply⟩ tries ↔ tries = [⟨op, reply⟩])
    (hnext : ∀ reply, Layers stands (next reply) (next' reply)) :
    Layers stands (.ask op next) (.ask op next') := by
  intro lower value
  constructor
  · intro h
    rcases steps_ask_iff.mp h with ⟨-, ⟨⟩⟩ | ⟨reply, rest, rfl, hrest⟩
    obtain ⟨upper, hexpands, hsteps⟩ := (hnext reply rest value).mp hrest
    exact ⟨_ :: upper, .cons ((hop reply _).mpr rfl) hexpands, .ask hsteps⟩
  · rintro ⟨upper, hexpands, h⟩
    rcases steps_ask_iff.mp h with ⟨-, ⟨⟩⟩ | ⟨reply, rest, rfl, hrest⟩
    obtain ⟨tries, later, rfl, htries, hlater⟩ := expands_cons_iff.mp hexpands
    obtain rfl := (hop reply tries).mp htries
    exact .ask ((hnext reply later value).mpr ⟨rest, hlater, hrest⟩)

section Lift

variable {into : Op → Op'} {back : ∀ op, Reply' (into op) → Reply op}

def liftEvent (into : Op → Op') (forth : ∀ op, Reply op → Reply' (into op))
    (event : Event Op Reply) : Event Op' Reply' :=
  ⟨into event.op, forth event.op event.reply⟩

variable {forth : ∀ op, Reply op → Reply' (into op)}

theorem liftEvent_injective (hinto : Function.Injective into)
    (hback : ∀ op reply, back op (forth op reply) = reply) :
    Function.Injective (liftEvent into forth) := by
  rintro ⟨op, reply⟩ ⟨op', reply'⟩ h
  obtain ⟨hop, hreply⟩ := Event.mk.inj h
  obtain rfl := hinto hop
  rw [← hback op reply, eq_of_heq hreply, hback]

/-- The runs of a part are those of the program, as the whole has them. -/
theorem steps_lift_iff (hback : ∀ op reply, back op (forth op reply) = reply)
    (hforth : ∀ op reply, forth op (back op reply) = reply) {p : Prog Op Reply α}
    {events : List (Event Op' Reply')} {q : Prog Op' Reply' α} :
    Steps (p.lift into back) events q ↔
      ∃ part q', events = part.map (liftEvent into forth) ∧ Steps p part q' ∧
        q = q'.lift into back := by
  constructor
  · intro h
    induction p generalizing events with
    | ret value =>
        obtain ⟨rfl, rfl⟩ := steps_ret_iff.mp h
        exact ⟨[], .ret value, rfl, .refl _, rfl⟩
    | ask op next ih =>
        rw [lift] at h
        rcases steps_ask_iff.mp h with ⟨rfl, rfl⟩ | ⟨reply, rest, rfl, hrest⟩
        · exact ⟨[], .ask op next, rfl, .refl _, rfl⟩
        · obtain ⟨part, q', rfl, hpart, rfl⟩ := ih _ hrest
          refine ⟨⟨op, back op reply⟩ :: part, q', ?_, .ask hpart, rfl⟩
          rw [List.map_cons, liftEvent, hforth]
    | stop =>
        obtain ⟨rfl, rfl⟩ := steps_stop_iff.mp h
        exact ⟨[], .stop, rfl, .refl _, rfl⟩
  · rintro ⟨part, q', rfl, h, rfl⟩
    exact h.lift into back forth hback

theorem value?_lift (into : Op → Op') (back : ∀ op, Reply' (into op) → Reply op)
    (p : Prog Op Reply α) : (p.lift into back).value? = p.value? := by
  cases p <;> rfl

theorem steps_lift_ret_iff (hback : ∀ op reply, back op (forth op reply) = reply)
    (hforth : ∀ op reply, forth op (back op reply) = reply) {p : Prog Op Reply α}
    {events : List (Event Op' Reply')} {value : α} :
    Steps (p.lift into back) events (.ret value) ↔
      ∃ part, events = part.map (liftEvent into forth) ∧ Steps p part (.ret value) := by
  rw [steps_lift_iff hback hforth]
  constructor
  · rintro ⟨part, q', rfl, hpart, hq⟩
    have hvalue : q'.value? = some value := by
      rw [← value?_lift into back, ← hq]
      rfl
    exact ⟨part, rfl, value?_eq_some_iff.mp hvalue ▸ hpart⟩
  · rintro ⟨part, rfl, hpart⟩
    exact ⟨part, .ret value, rfl, hpart, rfl⟩

variable {stands : Event Op Reply → List (Event Op Reply) → Prop}
  {stands' : Event Op' Reply' → List (Event Op' Reply') → Prop}

theorem expands_lift_iff
    (hstands : ∀ event tries, stands' (liftEvent into forth event) tries ↔
      ∃ part, tries = part.map (liftEvent into forth) ∧ stands event part)
    {upper : List (Event Op Reply)} {lower : List (Event Op' Reply')} :
    Expands stands' (upper.map (liftEvent into forth)) lower ↔
      ∃ part, lower = part.map (liftEvent into forth) ∧ Expands stands upper part := by
  induction upper generalizing lower with
  | nil => simp
  | cons event upper ih =>
      simp only [List.map_cons, expands_cons_iff, hstands, ih]
      constructor
      · rintro ⟨_, _, rfl, ⟨tries, rfl, h⟩, rest, rfl, hrest⟩
        exact ⟨tries ++ rest, List.map_append.symm, tries, rest, rfl, h, hrest⟩
      · rintro ⟨_, rfl, tries, rest, rfl, h, hrest⟩
        exact ⟨_, _, List.map_append, ⟨tries, rfl, h⟩, rest, rfl, hrest⟩

/-- Levels of a part are levels of the whole. -/
theorem Layers.lift {p q : Prog Op Reply α} (h : Layers stands p q)
    (hback : ∀ op reply, back op (forth op reply) = reply)
    (hforth : ∀ op reply, forth op (back op reply) = reply)
    (hstands : ∀ event tries, stands' (liftEvent into forth event) tries ↔
      ∃ part, tries = part.map (liftEvent into forth) ∧ stands event part) :
    Layers stands' (p.lift into back) (q.lift into back) := by
  intro lower value
  rw [steps_lift_ret_iff hback hforth]
  constructor
  · rintro ⟨part, rfl, hsteps⟩
    obtain ⟨upper, hexpands, hq⟩ := (h part value).mp hsteps
    exact ⟨_, (expands_lift_iff hstands).mpr ⟨part, rfl, hexpands⟩,
      (steps_lift_ret_iff hback hforth).mpr ⟨upper, rfl, hq⟩⟩
  · rintro ⟨_, hexpands, hsteps⟩
    obtain ⟨upper, rfl, hq⟩ := (steps_lift_ret_iff hback hforth).mp hsteps
    obtain ⟨part, rfl, hpart⟩ := (expands_lift_iff hstands).mp hexpands
    exact ⟨part, rfl, (h part value).mpr ⟨upper, hpart, hq⟩⟩

end Lift

end Library.Layering
