import Tamga.Library.Interaction

/-!
Programs that add as well as talk to their environment.  A sum of two `Int64` is a
step of its own, so that a run shows every sum that it has made: also one whose
result is never used, and one that overflow checks do not let it get past.
-/

namespace Library.CheckedSums

open Library.Interaction
open Library.Interaction.Prog

section Overflow

def Overflows (a b : Int64) : Prop :=
  a.toInt + b.toInt < Int64.minValue.toInt ∨ Int64.maxValue.toInt < a.toInt + b.toInt

instance (a b : Int64) : Decidable (Overflows a b) := inferInstanceAs (Decidable (_ ∨ _))

theorem toInt_add_of_not_overflows {a b : Int64} (h : ¬ Overflows a b) :
    (a + b).toInt = a.toInt + b.toInt := by
  rw [Overflows, Int64.toInt_minValue, Int64.toInt_maxValue] at h
  rw [Int64.toInt_add]
  exact Int.bmod_eq_of_le (by omega) (by omega)

theorem overflows_one_iff {a : Int64} : Overflows a 1 ↔ a = Int64.maxValue := by
  have hlow := a.le_toInt
  have hhigh := a.toInt_lt
  rw [Overflows, ← Int64.toInt_inj, Int64.toInt_minValue, Int64.toInt_maxValue, Int64.toInt_one]
  omega

theorem not_overflows_one_of_lt {a b : Int64} (h : a < b) : ¬ Overflows a 1 := by
  intro hmax
  obtain rfl := overflows_one_iff.mp hmax
  exact Int64.not_lt.mpr b.le_maxValue h

end Overflow

inductive SumOp (Op : Type) where
  | call (op : Op)
  | add (a b : Int64)

abbrev SumReply {Op : Type} (Reply : Op → Type) : SumOp Op → Type
  | .call op => Reply op
  | .add _ _ => Int64

abbrev Summing (Op : Type) (Reply : Op → Type) (α : Type) :=
  Prog (SumOp Op) (SumReply Reply) α

abbrev SumEvent (Op : Type) (Reply : Op → Type) := Event (SumOp Op) (SumReply Reply)

variable {Op : Type} {Reply : Op → Type} {α β ε : Type}

/-- A program without sums of its own, as a part of one that has some. -/
def calling (p : Prog Op Reply α) : Summing Op Reply α := p.lift .call fun _ reply => reply

def adding (a b : Int64) : Summing Op Reply Int64 := .ask (.add a b) .ret

section Events

/-- What was asked of the environment, with its answers. -/
def calls (events : List (SumEvent Op Reply)) : List (Event Op Reply) :=
  events.filterMap fun
    | ⟨.call op, reply⟩ => some ⟨op, reply⟩
    | ⟨.add _ _, _⟩ => none

def summed (events : List (SumEvent Op Reply)) : List (Int64 × Int64) :=
  events.filterMap fun
    | ⟨.call _, _⟩ => none
    | ⟨.add a b, _⟩ => some (a, b)

def pending : Summing Op Reply α → List (Int64 × Int64)
  | .ask (.add a b) _ => [(a, b)]
  | _ => []

/-- All that a run has added, when it has come to `q`. -/
def sums (events : List (SumEvent Op Reply)) (q : Summing Op Reply α) : List (Int64 × Int64) :=
  summed events ++ pending q

variable {front back events : List (SumEvent Op Reply)} {q : Summing Op Reply α}

@[simp] theorem calls_nil : calls ([] : List (SumEvent Op Reply)) = [] := rfl

@[simp] theorem calls_call {op : Op} {reply : Reply op} :
    calls (⟨.call op, reply⟩ :: events) = ⟨op, reply⟩ :: calls events := rfl

@[simp] theorem calls_add {a b sum : Int64} :
    calls (⟨.add a b, sum⟩ :: events) = calls events := rfl

@[simp] theorem calls_append : calls (front ++ back) = calls front ++ calls back :=
  List.filterMap_append

@[simp] theorem sums_nil : sums ([] : List (SumEvent Op Reply)) q = pending q := rfl

@[simp] theorem sums_call {op : Op} {reply : Reply op} :
    sums (⟨.call op, reply⟩ :: events) q = sums events q := rfl

@[simp] theorem sums_add {a b sum : Int64} :
    sums (⟨.add a b, sum⟩ :: events) q = (a, b) :: sums events q := rfl

theorem sums_append : sums (front ++ back) q = summed front ++ sums back q := by
  rw [sums, summed, List.filterMap_append, List.append_assoc]
  rfl

def NoOverflow (events : List (SumEvent Op Reply)) (q : Summing Op Reply α) : Prop :=
  ∀ sum ∈ sums events q, ¬ Overflows sum.1 sum.2

end Events

section Profiles

/-- `dev` checks for overflow and panics; `release` wraps. -/
inductive Profile where
  | dev
  | release

/-- The result of a sum; a checked one that overflows has none. -/
def Computes (profile : Profile) : SumEvent Op Reply → Prop
  | ⟨.call _, _⟩ => True
  | ⟨.add a b, sum⟩ => sum = a + b ∧ (profile = .dev → ¬ Overflows a b)

/-- `p` turns into `q` by these questions and sums, whatever the environment answers.
A program that panics stays at its sum. -/
structure Runs (profile : Profile) (p : Summing Op Reply α) (events : List (SumEvent Op Reply))
    (q : Summing Op Reply α) : Prop where
  steps : Steps p events q
  computes : ∀ event ∈ events, Computes profile event

variable {profile : Profile} {p : Summing Op Reply α} {q : Summing Op Reply β}
  {front back events : List (SumEvent Op Reply)}

theorem Runs.bind {f : α → Summing Op Reply β} {a : α} (hp : Runs profile p front (.ret a))
    (hf : Runs profile (f a) back q) : Runs profile (p.bind f) (front ++ back) q :=
  ⟨hp.steps.bind hf.steps, List.forall_mem_append.mpr ⟨hp.computes, hf.computes⟩⟩

theorem Runs.call {op : Op} {next : Reply op → Summing Op Reply α} {reply : Reply op}
    {q : Summing Op Reply α} (h : Runs profile (next reply) events q) :
    Runs profile (.ask (.call op) next) (⟨.call op, reply⟩ :: events) q :=
  ⟨.ask h.steps, List.forall_mem_cons.mpr ⟨trivial, h.computes⟩⟩

theorem Runs.add {a b : Int64} {next : Int64 → Summing Op Reply α} {q : Summing Op Reply α}
    (hchecked : profile = .dev → ¬ Overflows a b) (h : Runs profile (next (a + b)) events q) :
    Runs profile (.ask (.add a b) next) (⟨.add a b, a + b⟩ :: events) q :=
  ⟨.ask h.steps, List.forall_mem_cons.mpr ⟨⟨rfl, hchecked⟩, h.computes⟩⟩

end Profiles

section Calling

variable {p q : Prog Op Reply α}

@[simp] theorem value?_calling : (calling p).value? = p.value? := by
  cases p with
  | ret => rfl
  | ask => rfl
  | stop => rfl

/-- What is added after a part without sums is not added in it. -/
theorem pending_calling_bind {f : α → Summing Op Reply β} (h : p.value? = none) :
    pending ((calling p).bind f) = [] := by
  cases p with
  | ret => cases h
  | ask => rfl
  | stop => rfl

theorem steps_calling {events : List (SumEvent Op Reply)} {r : Summing Op Reply α}
    (h : Steps (calling p) events r) :
    ∃ q, r = calling q ∧ Steps p (calls events) q ∧ summed events = [] := by
  induction p generalizing events with
  | ret value =>
      obtain ⟨rfl, rfl⟩ := steps_ret_iff.mp h
      exact ⟨.ret value, rfl, .refl _, rfl⟩
  | ask op next ih =>
      rw [calling, lift] at h
      rcases steps_ask_iff.mp h with ⟨rfl, rfl⟩ | ⟨reply, rest, rfl, hrest⟩
      · exact ⟨.ask op next, rfl, .refl _, rfl⟩
      · obtain ⟨q, rfl, hsteps, hsummed⟩ := ih reply hrest
        exact ⟨q, rfl, .ask hsteps, hsummed⟩
  | stop =>
      obtain ⟨rfl, rfl⟩ := steps_stop_iff.mp h
      exact ⟨.stop, rfl, .refl _, rfl⟩

theorem steps_calling_ret {events : List (SumEvent Op Reply)} {value : α}
    (h : Steps (calling p) events (.ret value)) :
    Steps p (calls events) (.ret value) ∧ summed events = [] := by
  obtain ⟨q, hq, hsteps, hsummed⟩ := steps_calling h
  have hvalue : q.value? = some value := by
    rw [← value?_calling, ← hq]
    rfl
  rw [value?_eq_some_iff] at hvalue
  exact ⟨hvalue ▸ hsteps, hsummed⟩

theorem runs_calling {profile : Profile} {events : List (Event Op Reply)} (h : Steps p events q) :
    Runs profile (calling p) (events.map fun event => ⟨.call event.op, event.reply⟩)
      (calling q) where
  steps := by
    induction h with
    | refl => exact .refl _
    | ask _ ih => exact .ask ih
  computes := by
    intro event hmem
    obtain ⟨_, -, rfl⟩ := List.mem_map.mp hmem
    trivial

end Calling

section Wrapping

/-- The program as it is without overflow checks, its sums no longer seen. -/
def wrapping : Summing Op Reply α → Prog Op Reply α
  | .ret value => .ret value
  | .ask (.call op) next => .ask op fun reply => (wrapping (next reply))
  | .ask (.add a b) next => wrapping (next (a + b))
  | .stop => .stop

theorem wrapping_bind (p : Summing Op Reply α) (f : α → Summing Op Reply β) :
    wrapping (p.bind f) = (wrapping p).bind fun a => wrapping (f a) := by
  induction p with
  | ret value => rfl
  | ask op next ih =>
      cases op with
      | call op =>
          simp only [Prog.bind, wrapping]
          congr 1
          funext reply
          exact ih reply
      | add a b => exact ih (a + b)
  | stop => rfl

theorem wrapping_calling (p : Prog Op Reply α) : wrapping (calling p) = p := by
  induction p with
  | ret value => rfl
  | ask op next ih =>
      rw [calling, lift, wrapping]
      congr 1
      funext reply
      exact ih reply
  | stop => rfl

theorem wrapping_andThen (p : Prog Op Reply (Except ε α))
    (f : α → Summing Op Reply (Except ε β)) :
    wrapping ((calling p).andThen f) = p.andThen fun a => wrapping (f a) := by
  rw [andThen, wrapping_bind, wrapping_calling, andThen]
  congr 1
  funext outcome
  cases outcome with
  | ok a => rfl
  | error err => rfl

/-- A run in either profile is a run of the program that only wraps; the checks
can cut it short and do nothing else to it. -/
theorem Runs.wrapping {profile : Profile} {p q : Summing Op Reply α}
    {events : List (SumEvent Op Reply)} (h : Runs profile p events q) :
    Steps (wrapping p) (calls events) (wrapping q) := by
  obtain ⟨hsteps, hcomputes⟩ := h
  induction hsteps with
  | refl => exact .refl _
  | @ask op next reply events q _ ih =>
      obtain ⟨hfirst, hrest⟩ := List.forall_mem_cons.mp hcomputes
      cases op with
      | call op => exact .ask (ih hrest)
      | add a b =>
          obtain rfl : reply = a + b := hfirst.1
          exact ih hrest

/-- Without checks these runs are all that there are of it. -/
theorem steps_wrapping_iff {p : Summing Op Reply α} {asked : List (Event Op Reply)}
    {r : Prog Op Reply α} :
    Steps (wrapping p) asked r ↔
      ∃ events q, Runs .release p events q ∧ calls events = asked ∧ wrapping q = r := by
  constructor
  · intro h
    induction p generalizing asked with
    | ret value =>
        obtain ⟨rfl, rfl⟩ := steps_ret_iff.mp h
        exact ⟨[], .ret value, ⟨.refl _, nofun⟩, rfl, rfl⟩
    | ask op next ih =>
        cases op with
        | call op =>
            rcases steps_ask_iff.mp h with ⟨rfl, rfl⟩ | ⟨reply, rest, rfl, hrest⟩
            · exact ⟨[], .ask (.call op) next, ⟨.refl _, nofun⟩, rfl, rfl⟩
            · obtain ⟨events, q, hruns, rfl, rfl⟩ := ih reply hrest
              exact ⟨⟨.call op, reply⟩ :: events, q, hruns.call, rfl, rfl⟩
        | add a b =>
            obtain ⟨events, q, hruns, rfl, rfl⟩ := ih (a + b) h
            exact ⟨⟨.add a b, a + b⟩ :: events, q, hruns.add nofun, rfl, rfl⟩
    | stop =>
        obtain ⟨rfl, rfl⟩ := steps_stop_iff.mp h
        exact ⟨[], .stop, ⟨.refl _, nofun⟩, rfl, rfl⟩
  · rintro ⟨events, q, hruns, rfl, rfl⟩
    exact hruns.wrapping

end Wrapping

end Library.CheckedSums
