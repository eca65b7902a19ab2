import Mathlib.Algebra.BigOperators.Group.Finset.Piecewise
import Mathlib.Logic.Relation
import Tamga.Library.Interaction

namespace Library.Interleaving

open Library.Interaction
open Library.Interaction.Prog

/-- `serves` is how a question may be answered and what that leaves, `drifts` what
happens to the server beside the programs. -/
structure World (σ Op : Type) (Reply : Op → Type) where
  serves : σ → Event Op Reply → σ → Prop
  drifts : σ → σ → Prop

variable {σ Op ι α : Type} {Reply : Op → Type}

def closed (serves : σ → Event Op Reply → σ → Prop) : World σ Op Reply := ⟨serves, fun _ _ => False⟩

section Log

variable [DecidableEq ι]

def exchanges (i : ι) (log : List (ι × Event Op Reply)) : List (Event Op Reply) :=
  log.filterMap fun entry => if entry.1 = i then some entry.2 else none

@[simp] theorem exchanges_nil (i : ι) : exchanges i ([] : List (ι × Event Op Reply)) = [] := rfl

theorem exchanges_append_self (i : ι) (log : List (ι × Event Op Reply)) (event : Event Op Reply) :
    exchanges i (log ++ [(i, event)]) = exchanges i log ++ [event] := by
  simp only [exchanges, List.filterMap_append, List.filterMap_cons, List.filterMap_nil, if_pos]

theorem exchanges_append_other {i j : ι} (h : j ≠ i) (log : List (ι × Event Op Reply))
    (event : Event Op Reply) : exchanges i (log ++ [(j, event)]) = exchanges i log := by
  simp only [exchanges, List.filterMap_append, List.filterMap_cons, List.filterMap_nil, if_neg h,
    List.append_nil]

theorem mem_exchanges {i : ι} {log : List (ι × Event Op Reply)} {event : Event Op Reply} :
    event ∈ exchanges i log ↔ (i, event) ∈ log := by
  rw [exchanges, List.mem_filterMap]
  constructor
  · rintro ⟨⟨j, other⟩, hmem, hentry⟩
    split at hentry
    · rename_i h
      obtain rfl : j = i := h
      exact Option.some.inj hentry ▸ hmem
    · cases hentry
  · intro hmem
    exact ⟨(i, event), hmem, if_pos rfl⟩

theorem sum_countP_exchanges [Fintype ι] (p : Event Op Reply → Bool)
    (log : List (ι × Event Op Reply)) :
    ∑ i, (exchanges i log).countP p = log.countP fun entry => p entry.2 := by
  induction log using List.reverseRecOn with
  | nil => simp
  | append_singleton log entry ih =>
      obtain ⟨j, event⟩ := entry
      have hown : ∀ i, (exchanges i (log ++ [(j, event)])).countP p =
          (exchanges i log).countP p + if i = j then [event].countP p else 0 := by
        intro i
        by_cases h : i = j
        · subst h
          rw [exchanges_append_self, List.countP_append, if_pos rfl]
        · rw [exchanges_append_other (Ne.symm h), if_neg h, Nat.add_zero]
      simp only [hown, Finset.sum_add_distrib, ih, Finset.sum_ite_eq', Finset.mem_univ, if_true,
        List.countP_append, List.countP_singleton]

end Log

section Run

variable [DecidableEq ι] {world : World σ Op Reply} {start : σ} {progs : ι → Prog Op Reply α}

/-- A run of `progs` from `start`, however long: its log, the server that it leaves
and what the programs have become. -/
inductive Run (world : World σ Op Reply) (start : σ) (progs : ι → Prog Op Reply α) :
    List (ι × Event Op Reply) → σ → (ι → Prog Op Reply α) → Prop
  | start : Run world start progs [] start progs
  | serve {log : List (ι × Event Op Reply)} {state after : σ} {now : ι → Prog Op Reply α}
      (h : Run world start progs log state now) {i : ι} {op : Op}
      {next : Reply op → Prog Op Reply α} (hasks : now i = .ask op next) {reply : Reply op}
      (hserves : world.serves state ⟨op, reply⟩ after) :
      Run world start progs (log ++ [(i, ⟨op, reply⟩)]) after
        (Function.update now i (next reply))
  | drift {log : List (ι × Event Op Reply)} {state after : σ} {now : ι → Prog Op Reply α}
      (h : Run world start progs log state now) (hdrifts : world.drifts state after) :
      Run world start progs log after now

variable {log : List (ι × Event Op Reply)} {state : σ} {now : ι → Prog Op Reply α}

/-- Of the run each program sees a run of its own. -/
theorem Run.steps (h : Run world start progs log state now) (i : ι) :
    Steps (progs i) (exchanges i log) (now i) := by
  induction h with
  | start => exact .refl _
  | drift _ _ ih => exact ih
  | @serve log state after now _ j op next hasks reply _ ih =>
      by_cases hij : j = i
      · subst hij
        rw [exchanges_append_self, Function.update_self]
        rw [hasks] at ih
        exact ih.append (.ask (.refl _))
      · rw [exchanges_append_other hij, Function.update_of_ne (Ne.symm hij)]
        exact ih

/-- A program that has returned at the start asks nothing. -/
theorem Run.returned {i : ι} {value : α} (h : Run world start progs log state now)
    (hret : progs i = .ret value) : now i = .ret value ∧ i ∉ log.map Prod.fst := by
  have hsteps := h.steps i
  rw [hret] at hsteps
  obtain ⟨hnone, hnow⟩ := steps_ret_iff.mp hsteps
  refine ⟨hnow, fun hmem => ?_⟩
  obtain ⟨⟨_, event⟩, hevent, rfl⟩ := List.mem_map.mp hmem
  have hown := mem_exchanges.mpr hevent
  rw [hnone] at hown
  cases hown

/-- Other programs may stand in the places of those that have returned at the start. -/
theorem Run.replace {progs' : ι → Prog Op Reply α} (h : Run world start progs log state now)
    (hreplace : ∀ i, progs' i = progs i ∨ ∃ value, progs i = .ret value) :
    ∃ now', Run world start progs' log state now' ∧
      ∀ i, progs' i = progs i → now' i = now i := by
  induction h with
  | start => exact ⟨progs', .start, fun _ hsame => hsame⟩
  | drift _ hdrifts ih =>
      obtain ⟨now', hrun, hsame⟩ := ih
      exact ⟨now', hrun.drift hdrifts, hsame⟩
  | @serve log state after now h j op next hasks reply hserves ih =>
      obtain ⟨now', hrun, hsame⟩ := ih
      have hj : progs' j = progs j := by
        rcases hreplace j with hj | ⟨value, hret⟩
        · exact hj
        · cases (h.returned hret).1.symm.trans hasks
      refine ⟨_, hrun.serve ((hsame j hj).trans hasks) hserves, fun i hi => ?_⟩
      by_cases hij : i = j
      · subst hij
        rw [Function.update_self, Function.update_self]
      · rw [Function.update_of_ne hij, Function.update_of_ne hij]
        exact hsame i hi

inductive Serving (world : World σ Op Reply) : σ → List (Event Op Reply) → σ → Prop
  | nil (state : σ) : Serving world state [] state
  | cons {state mid after : σ} {event : Event Op Reply} {events : List (Event Op Reply)}
      (h : world.serves state event mid) (hrest : Serving world mid events after) :
      Serving world state (event :: events) after

theorem Run.serve_steps (h : Run world start progs log state now) (i : ι)
    {events : List (Event Op Reply)} {p q : Prog Op Reply α} {after : σ}
    (hsteps : Steps p events q) (hp : now i = p) (hserving : Serving world state events after) :
    Run world start progs (log ++ events.map (Prod.mk i)) after (Function.update now i q) := by
  induction hsteps generalizing log state now with
  | refl =>
      cases hserving
      rw [← hp, Function.update_eq_self, List.map_nil, List.append_nil]
      exact h
  | ask _ ih =>
      cases hserving with
      | cons hserves hrest =>
          have hlater := ih (h.serve hp hserves) (Function.update_self ..) hrest
          rwa [Function.update_idem, List.append_assoc] at hlater

theorem Run.alone {events : List (Event Op Reply)} {p q : Prog Op Reply α} {after : σ}
    (hsteps : Steps p events q) (hserving : Serving world start events after) :
    ∃ log, Run world start (fun _ : Unit => p) log after fun _ => q := by
  have hstart : Run world start (fun _ : Unit => p) [] start _ := .start
  exact ⟨_, hstart.serve_steps () hsteps rfl hserving⟩

/-- What holds at the start of the log with the server, and is kept by whatever the
server does, holds throughout. -/
theorem Run.log_invariant (h : Run world start progs log state now)
    (inv : List (Event Op Reply) → σ → Prop) (hstart : inv [] start)
    (hserves : ∀ events before event after, inv events before →
      world.serves before event after → inv (events ++ [event]) after)
    (hdrifts : ∀ events before after, inv events before → world.drifts before after →
      inv events after) :
    inv (log.map Prod.snd) state := by
  induction h with
  | start => exact hstart
  | serve _ _ hstep ih =>
      rw [List.map_append]
      exact hserves _ _ _ _ ih hstep
  | drift _ hstep ih => exact hdrifts _ _ _ ih hstep

/-- What a program keeps about itself and the server: its own steps have to keep it,
and it has to bear what the others do. -/
theorem Run.program_invariant {i : ι} (h : Run world start progs log state now)
    (inv : List (Event Op Reply) → σ → Prog Op Reply α → Prop) (hstart : inv [] start (progs i))
    (hown : ∀ (events : List (Event Op Reply)) (before : σ) (op : Op)
      (next : Reply op → Prog Op Reply α) (reply : Reply op) (after : σ),
      inv events before (.ask op next) → world.serves before ⟨op, reply⟩ after →
        inv (events ++ [⟨op, reply⟩]) after (next reply))
    (hothers : ∀ events before event after p, inv events before p →
      world.serves before event after → inv events after p)
    (hdrifts : ∀ events before after p, inv events before p → world.drifts before after →
      inv events after p) :
    inv (exchanges i log) state (now i) := by
  induction h with
  | start => exact hstart
  | drift _ hstep ih => exact hdrifts _ _ _ _ ih hstep
  | @serve log state after now _ j op next hasks reply hstep ih =>
      by_cases hij : j = i
      · subst hij
        rw [exchanges_append_self, Function.update_self]
        rw [hasks] at ih
        exact hown _ _ _ _ _ _ ih hstep
      · rw [exchanges_append_other hij, Function.update_of_ne (Ne.symm hij)]
        exact hothers _ _ _ _ _ ih hstep

inductive Moves (world : World σ Op Reply) : σ → σ → Prop
  | serves {before after : σ} {event : Event Op Reply} (h : world.serves before event after) :
      Moves world before after
  | drifts {before after : σ} (h : world.drifts before after) : Moves world before after

abbrev Later (world : World σ Op Reply) : σ → σ → Prop := Relation.ReflTransGen (Moves world)

theorem Run.later (h : Run world start progs log state now) : Later world start state := by
  induction h with
  | start => exact .refl
  | serve _ _ hserves ih => exact ih.tail (.serves hserves)
  | drift _ hdrifts ih => exact ih.tail (.drifts hdrifts)

/-- An answer in the log was given at some moment of the run. -/
theorem Run.served (h : Run world start progs log state now) {i : ι} {event : Event Op Reply}
    (hmem : (i, event) ∈ log) :
    ∃ before after, Later world start before ∧ world.serves before event after ∧
      Later world after state := by
  induction h with
  | start => cases hmem
  | @serve log state next now h _ _ _ _ _ hserves ih =>
      rcases List.mem_append.mp hmem with hearlier | hlast
      · obtain ⟨before, after, hbefore, hserved, hafter⟩ := ih hearlier
        exact ⟨before, after, hbefore, hserved, hafter.tail (.serves hserves)⟩
      · cases List.mem_singleton.mp hlast
        exact ⟨state, next, h.later, hserves, .refl⟩
  | drift _ hdrifts ih =>
      obtain ⟨before, after, hbefore, hserved, hafter⟩ := ih hmem
      exact ⟨before, after, hbefore, hserved, hafter.tail (.drifts hdrifts)⟩

/-- What every move only adds to. -/
theorem Later.grows {τ : Type} {r : τ → τ → Prop} (view : σ → τ) (hrefl : ∀ a, r a a)
    (htrans : ∀ {a b c}, r a b → r b c → r a c)
    (hmoves : ∀ before after, Moves world before after → r (view before) (view after))
    {before after : σ} (h : Later world before after) : r (view before) (view after) := by
  induction h with
  | refl => exact hrefl _
  | tail _ hmove ih => exact htrans ih (hmoves _ _ hmove)

end Run

end Library.Interleaving
