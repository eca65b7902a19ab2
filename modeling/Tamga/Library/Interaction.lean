import Mathlib.Tactic.Common

/-!
Programs that talk to their environment.  A program returns, or asks and goes on
with the reply, or has used up the bound on one of its loops.  A run records
what was asked and what was answered; it may end anywhere, as when a caller
drops a future.
-/

namespace Library.Interaction

inductive Prog (Op : Type) (Reply : Op → Type) (α : Type) where
  | ret (value : α)
  | ask (op : Op) (next : Reply op → Prog Op Reply α)
  | stop

structure Event (Op : Type) (Reply : Op → Type) where
  op : Op
  reply : Reply op

namespace Prog

variable {Op : Type} {Reply : Op → Type} {α β γ ε : Type}

def bind : Prog Op Reply α → (α → Prog Op Reply β) → Prog Op Reply β
  | ret value, f => f value
  | ask op next, f => ask op fun reply => (next reply).bind f
  | stop, _ => stop

def map (f : α → β) (p : Prog Op Reply α) : Prog Op Reply β := p.bind fun a => ret (f a)

/-- The `?` operator: an error is returned at once. -/
def andThen (p : Prog Op Reply (Except ε α)) (f : α → Prog Op Reply (Except ε β)) :
    Prog Op Reply (Except ε β) :=
  p.bind fun
    | .ok a => f a
    | .error e => ret (.error e)

def value? : Prog Op Reply α → Option α
  | ret value => some value
  | _ => none

theorem value?_eq_some_iff {p : Prog Op Reply α} {value : α} :
    p.value? = some value ↔ p = ret value := by
  constructor
  · intro h
    cases p with
    | ret other => exact congrArg ret (Option.some.inj h)
    | ask => cases h
    | stop => cases h
  · rintro rfl
    rfl

theorem value?_bind {p : Prog Op Reply α} {f : α → Prog Op Reply β} (h : p.value? = none) :
    (p.bind f).value? = none := by
  cases p with
  | ret => cases h
  | ask => rfl
  | stop => rfl

theorem bind_ne_stop {p : Prog Op Reply α} {f : α → Prog Op Reply β} (h : p.value? = none)
    (hstop : p ≠ stop) : p.bind f ≠ stop := by
  cases p with
  | ret => cases h
  | ask => rintro ⟨⟩
  | stop => exact absurd rfl hstop

theorem bind_assoc (p : Prog Op Reply α) (f : α → Prog Op Reply β) (g : β → Prog Op Reply γ) :
    (p.bind f).bind g = p.bind fun a => (f a).bind g := by
  induction p with
  | ret value => rfl
  | ask op next ih =>
      simp only [bind]
      congr 1
      funext reply
      exact ih reply
  | stop => rfl

theorem bind_ret (p : Prog Op Reply α) : p.bind ret = p := by
  induction p with
  | ret value => rfl
  | ask op next ih =>
      simp only [bind]
      congr 1
      funext reply
      exact ih reply
  | stop => rfl

theorem map_bind (p : Prog Op Reply α) (f : α → Prog Op Reply β) (g : β → γ) :
    (p.bind f).map g = p.bind fun a => (f a).map g :=
  bind_assoc p f _

theorem map_map (p : Prog Op Reply α) (f : α → β) (g : β → γ) :
    (p.map f).map g = p.map fun a => g (f a) :=
  bind_assoc p _ _

theorem andThen_ret_map (p : Prog Op Reply (Except ε α)) (f : α → Except ε β) (g : β → γ) :
    ((p.andThen fun a => ret (f a)).andThen fun b => ret (.ok (g b))) =
      p.andThen fun a => ret ((f a).map g) := by
  simp only [andThen, bind_assoc]
  congr 1
  funext reply
  cases reply with
  | error e => rfl
  | ok a =>
      simp only [bind]
      cases f a <;> rfl

/-- `p` can turn into `q` by these questions and replies. -/
inductive Steps : Prog Op Reply α → List (Event Op Reply) → Prog Op Reply α → Prop
  | refl (p : Prog Op Reply α) : Steps p [] p
  | ask {op : Op} {next : Reply op → Prog Op Reply α} {reply : Reply op}
      {events : List (Event Op Reply)} {q : Prog Op Reply α} (h : Steps (next reply) events q) :
      Steps (ask op next) (⟨op, reply⟩ :: events) q

theorem steps_ret_iff {value : α} {events : List (Event Op Reply)} {q : Prog Op Reply α} :
    Steps (ret value) events q ↔ events = [] ∧ q = ret value := by
  constructor
  · rintro ⟨⟩
    exact ⟨rfl, rfl⟩
  · rintro ⟨rfl, rfl⟩
    exact .refl _

theorem steps_stop_iff {events : List (Event Op Reply)} {q : Prog Op Reply α} :
    Steps stop events q ↔ events = [] ∧ q = stop := by
  constructor
  · rintro ⟨⟩
    exact ⟨rfl, rfl⟩
  · rintro ⟨rfl, rfl⟩
    exact .refl _

theorem steps_ask_iff {op : Op} {next : Reply op → Prog Op Reply α}
    {events : List (Event Op Reply)} {q : Prog Op Reply α} :
    Steps (ask op next) events q ↔ (events = [] ∧ q = ask op next) ∨
      ∃ reply rest, events = ⟨op, reply⟩ :: rest ∧ Steps (next reply) rest q := by
  constructor
  · intro h
    cases h with
    | refl => exact Or.inl ⟨rfl, rfl⟩
    | ask h => exact Or.inr ⟨_, _, rfl, h⟩
  · rintro (⟨rfl, rfl⟩ | ⟨reply, rest, rfl, h⟩)
    · exact .refl _
    · exact .ask h

theorem steps_ask_cons_iff {op : Op} {next : Reply op → Prog Op Reply α} {reply : Reply op}
    {rest : List (Event Op Reply)} {q : Prog Op Reply α} :
    Steps (ask op next) (⟨op, reply⟩ :: rest) q ↔ Steps (next reply) rest q := by
  constructor
  · rintro ⟨⟩
    assumption
  · exact .ask

theorem steps_bind_iff {p : Prog Op Reply α} {f : α → Prog Op Reply β}
    {events : List (Event Op Reply)} {q : Prog Op Reply β} :
    Steps (p.bind f) events q ↔ (∃ p', Steps p events p' ∧ q = p'.bind f) ∨
      ∃ a front back, events = front ++ back ∧ Steps p front (ret a) ∧ Steps (f a) back q := by
  induction p generalizing events with
  | ret value =>
      simp only [bind, steps_ret_iff]
      constructor
      · intro h
        exact Or.inr ⟨value, [], events, rfl, ⟨rfl, rfl⟩, h⟩
      · rintro (⟨_, ⟨rfl, rfl⟩, rfl⟩ | ⟨_, _, back, rfl, ⟨rfl, ⟨⟩⟩, h⟩)
        · exact .refl _
        · exact h
  | ask op next ih =>
      simp only [bind, steps_ask_iff]
      constructor
      · rintro (⟨rfl, rfl⟩ | ⟨reply, rest, rfl, h⟩)
        · exact Or.inl ⟨ask op next, Or.inl ⟨rfl, rfl⟩, rfl⟩
        · rcases (ih reply).mp h with ⟨p', hp', rfl⟩ | ⟨a, front, back, rfl, hfront, hback⟩
          · exact Or.inl ⟨p', Or.inr ⟨reply, rest, rfl, hp'⟩, rfl⟩
          · exact Or.inr ⟨a, _ :: front, back, rfl, Or.inr ⟨reply, front, rfl, hfront⟩, hback⟩
      · rintro (⟨p', ⟨rfl, rfl⟩ | ⟨reply, rest, rfl, h⟩, rfl⟩ |
          ⟨a, front, back, rfl, ⟨-, ⟨⟩⟩ | ⟨reply, rest, rfl, h⟩, hback⟩)
        · exact Or.inl ⟨rfl, rfl⟩
        · exact Or.inr ⟨reply, rest, rfl, (ih reply).mpr (Or.inl ⟨p', h, rfl⟩)⟩
        · exact Or.inr ⟨reply, rest ++ back, rfl,
            (ih reply).mpr (Or.inr ⟨a, rest, back, rfl, h, hback⟩)⟩
  | stop =>
      simp only [bind, steps_stop_iff]
      constructor
      · rintro ⟨rfl, rfl⟩
        exact Or.inl ⟨stop, ⟨rfl, rfl⟩, rfl⟩
      · rintro (⟨_, ⟨rfl, rfl⟩, rfl⟩ | ⟨_, _, _, _, ⟨-, ⟨⟩⟩, _⟩)
        exact ⟨rfl, rfl⟩

/-- A run of a `bind` is still in its first program, or past it. -/
theorem Steps.of_bind {p : Prog Op Reply α} {f : α → Prog Op Reply β}
    {events : List (Event Op Reply)} {q : Prog Op Reply β} (h : Steps (p.bind f) events q) :
    (∃ p', Steps p events p' ∧ p'.value? = none ∧ q = p'.bind f) ∨
      ∃ a front back, events = front ++ back ∧ Steps p front (ret a) ∧ Steps (f a) back q := by
  rcases steps_bind_iff.mp h with ⟨p', hp', rfl⟩ | hpast
  · cases p' with
    | ret a => exact Or.inr ⟨a, events, [], (List.append_nil events).symm, hp', .refl _⟩
    | ask op next => exact Or.inl ⟨_, hp', rfl, rfl⟩
    | stop => exact Or.inl ⟨_, hp', rfl, rfl⟩
  · exact Or.inr hpast

/-- A run of an `andThen` is still in its first program, or is over with its error,
or past it. -/
theorem Steps.of_andThen {p : Prog Op Reply (Except ε α)}
    {f : α → Prog Op Reply (Except ε β)} {events : List (Event Op Reply)}
    {q : Prog Op Reply (Except ε β)} (h : Steps (p.andThen f) events q) :
    (∃ p', Steps p events p' ∧ p'.value? = none ∧ q = p'.andThen f) ∨
      (∃ err, Steps p events (ret (.error err)) ∧ q = ret (.error err)) ∨
        ∃ a front back, events = front ++ back ∧ Steps p front (ret (.ok a)) ∧
          Steps (f a) back q := by
  rcases h.of_bind with hpending | ⟨outcome, front, back, rfl, hp, hback⟩
  · exact Or.inl hpending
  · cases outcome with
    | error err =>
        obtain ⟨rfl, rfl⟩ := steps_ret_iff.mp hback
        rw [List.append_nil]
        exact Or.inr (Or.inl ⟨err, hp, rfl⟩)
    | ok a => exact Or.inr (Or.inr ⟨a, front, back, rfl, hp, hback⟩)

/-- A run of a `bind` that is over has left its first program. -/
theorem Steps.of_bind_ret {p : Prog Op Reply α} {f : α → Prog Op Reply β}
    {events : List (Event Op Reply)} {b : β} (h : Steps (p.bind f) events (ret b)) :
    ∃ a front back, events = front ++ back ∧ Steps p front (ret a) ∧
      Steps (f a) back (ret b) := by
  rcases h.of_bind with ⟨p', -, hpending, hret⟩ | hpast
  · have hnone : (p'.bind f).value? = none := value?_bind hpending
    rw [← hret] at hnone
    cases hnone
  · exact hpast

/-- A run of a `bind` that has used up a bound has done so in its first program, or past it. -/
theorem Steps.of_bind_stop {p : Prog Op Reply α} {f : α → Prog Op Reply β}
    {events : List (Event Op Reply)} (h : Steps (p.bind f) events stop) :
    Steps p events stop ∨ ∃ a front back, events = front ++ back ∧ Steps p front (ret a) ∧
      Steps (f a) back stop := by
  rcases h.of_bind with ⟨p', hp', hpending, hstop⟩ | hpast
  · refine Or.inl ?_
    by_cases h : p' = stop
    · exact h ▸ hp'
    · exact absurd hstop.symm (bind_ne_stop hpending h)
  · exact Or.inr hpast

theorem Steps.append {p q r : Prog Op Reply α} {front back : List (Event Op Reply)}
    (hpq : Steps p front q) (hqr : Steps q back r) : Steps p (front ++ back) r := by
  induction hpq with
  | refl => exact hqr
  | ask _ ih => exact .ask (ih hqr)

theorem Steps.bind {p : Prog Op Reply α} {f : α → Prog Op Reply β} {a : α}
    {front back : List (Event Op Reply)} {q : Prog Op Reply β} (hp : Steps p front (ret a))
    (hf : Steps (f a) back q) : Steps (p.bind f) (front ++ back) q :=
  steps_bind_iff.mpr (Or.inr ⟨a, front, back, rfl, hp, hf⟩)

/-- Every run of `p`, finished or not, meets the specification: what was asked
and answered, and what was returned if anything was. -/
def Meets (p : Prog Op Reply α) (spec : List (Event Op Reply) → Option α → Prop) : Prop :=
  ∀ events q, Steps p events q → spec events q.value?

section Rules

variable {spec : List (Event Op Reply) → Option α → Prop}

theorem meets_ret {value : α} (h : spec [] (some value)) : Meets (ret value) spec := by
  intro events q hsteps
  obtain ⟨rfl, rfl⟩ := steps_ret_iff.mp hsteps
  exact h

theorem meets_stop (h : spec [] none) : Meets (stop : Prog Op Reply α) spec := by
  intro events q hsteps
  obtain ⟨rfl, rfl⟩ := steps_stop_iff.mp hsteps
  exact h

theorem meets_ask {op : Op} {next : Reply op → Prog Op Reply α} (hidle : spec [] none)
    (hnext : ∀ reply, Meets (next reply) fun events => spec (⟨op, reply⟩ :: events)) :
    Meets (ask op next) spec := by
  intro events q hsteps
  rcases steps_ask_iff.mp hsteps with ⟨rfl, rfl⟩ | ⟨reply, rest, rfl, h⟩
  · exact hidle
  · exact hnext reply rest q h

theorem meets_bind {p : Prog Op Reply β} {f : β → Prog Op Reply α}
    {first : List (Event Op Reply) → Option β → Prop} (hp : Meets p first)
    (hcut : ∀ events, first events none → spec events none)
    (hnext : ∀ front b, first front (some b) →
      Meets (f b) fun back => spec (front ++ back)) :
    Meets (p.bind f) spec := by
  intro events q hsteps
  rcases steps_bind_iff.mp hsteps with ⟨p', hp', rfl⟩ | ⟨b, front, back, rfl, hfront, hback⟩
  · have hfirst := hp events p' hp'
    cases p' with
    | ret b =>
        have hrest := hnext events b hfirst [] (f b) (.refl _)
        simpa only [List.append_nil, bind] using hrest
    | ask op next => exact hcut events hfirst
    | stop => exact hcut events hfirst
  · exact hnext front b (hp front (ret b) hfront) back q hback

/-- The rule for `bind` with nothing forgotten of the first program's run. -/
theorem meets_bind_steps {p : Prog Op Reply β} {f : β → Prog Op Reply α}
    (hcut : ∀ events p', Steps p events p' → p'.value? = none → spec events none)
    (hnext : ∀ front b, Steps p front (ret b) → Meets (f b) fun back => spec (front ++ back)) :
    Meets (p.bind f) spec := by
  have hp : Meets p fun events result => ∃ p', Steps p events p' ∧ p'.value? = result :=
    fun _ p' h => ⟨p', h, rfl⟩
  refine meets_bind hp ?_ ?_
  · rintro events ⟨p', h, hvalue⟩
    exact hcut events p' h hvalue
  · rintro front b ⟨p', h, hvalue⟩
    rw [value?_eq_some_iff] at hvalue
    exact hnext front b (hvalue ▸ h)

/-- A last step that only reads what came back. -/
theorem meets_andThen_ret {p : Prog Op Reply (Except ε β)} {f : β → Except ε α}
    {first : List (Event Op Reply) → Option (Except ε β) → Prop} (hp : Meets p first) :
    Meets (p.andThen fun b => ret (f b)) fun events result =>
      ∃ sent, first events sent ∧ result = sent.map fun outcome => outcome.bind f := by
  refine meets_bind hp (fun events h => ⟨none, h, rfl⟩) ?_
  intro front outcome h
  cases outcome with
  | ok b => exact meets_ret ⟨some (.ok b), by simpa only [List.append_nil] using h, rfl⟩
  | error e => exact meets_ret ⟨some (.error e), by simpa only [List.append_nil] using h, rfl⟩

theorem Meets.mono {p : Prog Op Reply α} {weaker : List (Event Op Reply) → Option α → Prop}
    (hp : Meets p spec) (h : ∀ events result, spec events result → weaker events result) :
    Meets p weaker :=
  fun events q hsteps => h events q.value? (hp events q hsteps)

end Rules

def Yields (p : Prog Op Reply α) (post : α → Prop) : Prop :=
  Meets p fun _ result => ∀ value, result = some value → post value

section Yields

variable {post : α → Prop}

theorem yields_ret {value : α} (h : post value) :
    Yields (ret value : Prog Op Reply α) post := by
  refine meets_ret ?_
  rintro _ ⟨⟩
  exact h

theorem yields_bind {p : Prog Op Reply β} {f : β → Prog Op Reply α}
    (hf : ∀ b, Yields (f b) post) : Yields (p.bind f) post := by
  have hp : Meets p fun _ _ => True := fun _ _ _ => trivial
  refine meets_bind hp ?_ fun _ b _ => hf b
  rintro _ - _ ⟨⟩

end Yields

section Lift

variable {Op' : Type} {Reply' : Op' → Type}

def lift (into : Op → Op') (back : ∀ op, Reply' (into op) → Reply op) :
    Prog Op Reply α → Prog Op' Reply' α
  | ret value => ret value
  | ask op next => ask (into op) fun reply => (next (back op reply)).lift into back
  | stop => stop

variable {into : Op → Op'} {back : ∀ op, Reply' (into op) → Reply op}

/-- The run of a part, with its questions as the whole asks them. -/
theorem Steps.lift {p q : Prog Op Reply α} {events : List (Event Op Reply)}
    (h : Steps p events q) (into : Op → Op') (back : ∀ op, Reply' (into op) → Reply op)
    (forth : ∀ op, Reply op → Reply' (into op))
    (hback : ∀ op reply, back op (forth op reply) = reply) :
    Steps (p.lift into back) (events.map fun event => ⟨into event.op, forth event.op event.reply⟩)
      (q.lift into back) := by
  induction h with
  | refl => exact .refl _
  | @ask op next reply events q _ ih =>
      refine .ask ?_
      rw [hback op reply]
      exact ih

end Lift

/-- A program that returns, whatever it is answered. -/
inductive Returns : Prog Op Reply α → Prop
  | ret (value : α) : Returns (ret value)
  | ask {op : Op} {next : Reply op → Prog Op Reply α} (h : ∀ reply, Returns (next reply)) :
      Returns (ask op next)

theorem Returns.bind {p : Prog Op Reply α} {f : α → Prog Op Reply β} (hp : Returns p)
    (hf : ∀ a, Returns (f a)) : Returns (p.bind f) := by
  induction hp with
  | ret value => exact hf value
  | ask _ ih => exact .ask ih

theorem Returns.andThen {p : Prog Op Reply (Except ε α)} {f : α → Prog Op Reply (Except ε β)}
    (hp : Returns p) (hf : ∀ a, Returns (f a)) : Returns (p.andThen f) := by
  refine hp.bind fun outcome => ?_
  cases outcome with
  | ok a => exact hf a
  | error e => exact .ret _

theorem Returns.lift {Op' : Type} {Reply' : Op' → Type} {p : Prog Op Reply α} (hp : Returns p)
    (into : Op → Op') (back : ∀ op, Reply' (into op) → Reply op) :
    Returns (p.lift into back) := by
  induction hp with
  | ret value => exact .ret value
  | ask _ ih => exact .ask fun reply => ih _

theorem Returns.ne_stop {p q : Prog Op Reply α} {events : List (Event Op Reply)}
    (hp : Returns p) (hsteps : Steps p events q) : q ≠ stop := by
  induction hsteps with
  | refl => rintro rfl; cases hp
  | ask _ ih =>
      cases hp with
      | ask h => exact ih (h _)

/-- The whole run against an environment that answers from what it has seen. -/
def exec (answer : List (Event Op Reply) → (op : Op) → Reply op) :
    List (Event Op Reply) → Prog Op Reply α → List (Event Op Reply) × Option α
  | seen, ret value => (seen, some value)
  | seen, ask op next =>
      exec answer (seen ++ [⟨op, answer seen op⟩]) (next (answer seen op))
  | seen, stop => (seen, none)

/-- What `exec` does is a run, and it goes on until the program returns or stops. -/
theorem exec_steps (answer : List (Event Op Reply) → (op : Op) → Reply op)
    (seen : List (Event Op Reply)) (p : Prog Op Reply α) :
    ∃ events q, Steps p events q ∧ (q.value? = none → q = stop) ∧
      exec answer seen p = (seen ++ events, q.value?) := by
  induction p generalizing seen with
  | ret value => exact ⟨[], ret value, .refl _, nofun, by rw [List.append_nil]; rfl⟩
  | ask op next ih =>
      obtain ⟨events, q, hsteps, hend, hexec⟩ :=
        ih (answer seen op) (seen ++ [⟨op, answer seen op⟩])
      refine ⟨_ :: events, q, .ask hsteps, hend, ?_⟩
      rw [exec, hexec, List.append_assoc, List.singleton_append]
  | stop => exact ⟨[], stop, .refl _, fun _ => rfl, by rw [List.append_nil]; rfl⟩

/-- The environment has these replies for these questions, one after the other. -/
def Answered (answer : List (Event Op Reply) → (op : Op) → Reply op) :
    List (Event Op Reply) → List (Event Op Reply) → Prop
  | _, [] => True
  | seen, event :: events =>
      event.reply = answer seen event.op ∧ Answered answer (seen ++ [event]) events

/-- A run of just what the environment answers is the beginning of the whole run. -/
theorem exec_of_answered {answer : List (Event Op Reply) → (op : Op) → Reply op}
    {p q : Prog Op Reply α} {events : List (Event Op Reply)} (hsteps : Steps p events q)
    (seen : List (Event Op Reply)) (hanswered : Answered answer seen events) :
    exec answer seen p = exec answer (seen ++ events) q := by
  induction hsteps generalizing seen with
  | refl => rw [List.append_nil]
  | @ask op next reply events q _ ih =>
      obtain ⟨hreply, hrest⟩ := hanswered
      have hreply : reply = answer seen op := hreply
      subst hreply
      rw [exec, ih _ hrest, List.append_assoc, List.singleton_append]

theorem answered_of_memoryless {answer : (op : Op) → Reply op} {events : List (Event Op Reply)}
    (hanswer : ∀ event ∈ events, event.reply = answer event.op) (seen : List (Event Op Reply)) :
    Answered (fun _ => answer) seen events := by
  induction events generalizing seen with
  | nil => trivial
  | cons event events ih =>
      obtain ⟨hreply, hrest⟩ := List.forall_mem_cons.mp hanswer
      exact ⟨hreply, ih hrest _⟩

/-- A finished run against an environment without memory is what `exec` does. -/
theorem exec_of_steps {answer : (op : Op) → Reply op} {p q : Prog Op Reply α}
    {events : List (Event Op Reply)} (hsteps : Steps p events q) {value : α}
    (hq : q = ret value) (hanswer : ∀ event ∈ events, event.reply = answer event.op)
    (seen : List (Event Op Reply)) :
    exec (fun _ => answer) seen p = (seen ++ events, some value) := by
  rw [exec_of_answered hsteps seen (answered_of_memoryless hanswer seen), hq, exec]

/-- `q` is `p` with bounds on its loops that are used up later, if at all. -/
inductive Extends : Prog Op Reply α → Prog Op Reply α → Prop
  | ret (value : α) : Extends (ret value) (ret value)
  | ask {op : Op} {next more : Reply op → Prog Op Reply α}
      (h : ∀ reply, Extends (next reply) (more reply)) : Extends (ask op next) (ask op more)
  | stop (q : Prog Op Reply α) : Extends stop q

theorem Extends.refl (p : Prog Op Reply α) : Extends p p := by
  induction p with
  | ret value => exact .ret value
  | ask op next ih => exact .ask ih
  | stop => exact .stop _

theorem Extends.bind {p q : Prog Op Reply α} {f g : α → Prog Op Reply β} (hp : Extends p q)
    (hf : ∀ a, Extends (f a) (g a)) : Extends (p.bind f) (q.bind g) := by
  induction hp with
  | ret value => exact hf value
  | ask _ ih => exact .ask ih
  | stop => exact .stop _

theorem Extends.andThen {p : Prog Op Reply (Except ε α)}
    {f g : α → Prog Op Reply (Except ε β)} (hf : ∀ a, Extends (f a) (g a)) :
    Extends (p.andThen f) (p.andThen g) := by
  refine (Extends.refl p).bind fun outcome => ?_
  cases outcome with
  | ok a => exact hf a
  | error e => exact .ret _

/-- A run that returns is the same with greater bounds. -/
theorem Extends.exec_eq {p q : Prog Op Reply α} (h : Extends p q)
    {answer : List (Event Op Reply) → (op : Op) → Reply op} {seen : List (Event Op Reply)}
    {value : α} (hvalue : (exec answer seen p).2 = some value) :
    exec answer seen q = exec answer seen p := by
  induction h generalizing seen with
  | ret => rfl
  | ask _ ih => exact ih _ hvalue
  | stop => cases hvalue

theorem Yields.exec {p : Prog Op Reply α} {post : α → Prop} (hp : Yields p post)
    {answer : List (Event Op Reply) → (op : Op) → Reply op} {seen : List (Event Op Reply)}
    {value : α} (h : (exec answer seen p).2 = some value) : post value := by
  obtain ⟨events, q, hsteps, -, hexec⟩ := exec_steps answer seen p
  rw [hexec] at h
  exact hp events q hsteps value h

theorem Returns.exec {p : Prog Op Reply α} (hp : Returns p)
    (answer : List (Event Op Reply) → (op : Op) → Reply op) (seen : List (Event Op Reply)) :
    ∃ value, (exec answer seen p).2 = some value := by
  induction hp generalizing seen with
  | ret value => exact ⟨value, rfl⟩
  | ask _ ih => exact ih _ _

theorem exec_map (answer : List (Event Op Reply) → (op : Op) → Reply op) (f : α → β)
    (seen : List (Event Op Reply)) (p : Prog Op Reply α) :
    exec answer seen (p.map f) =
      ((exec answer seen p).1, (exec answer seen p).2.map f) := by
  induction p generalizing seen with
  | ret value => rfl
  | ask op next ih => exact ih (answer seen op) _
  | stop => rfl

end Prog

end Library.Interaction
