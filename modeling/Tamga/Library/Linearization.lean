import Tamga.Library.Interleaving

/-!
Programs that each have one question for an object that carries questions out one at a
time, and repeat it only when it was refused.  Whatever the schedule, the answers are
those of a sequential history of the object, in which each program has its place at most
once.
-/

namespace Library.Linearization

open Library.Interaction
open Library.Interaction.Prog
open Library.Interleaving

variable {σ Op ι α : Type} {Reply : Op → Type}

/-- An object: what a question may do to its state, and which replies report the state
that it has left, refuse it, or leave open whether it was carried out. -/
structure Object (σ Op : Type) (Reply : Op → Type) where
  effect : Op → σ → σ → Prop
  reports : (op : Op) → Reply op → σ → Prop
  refuses : (op : Op) → Reply op → Prop
  lost : (op : Op) → Reply op → Prop
  not_refuses_of_reports : ∀ {op reply state}, reports op reply state → ¬refuses op reply
  not_refuses_of_lost : ∀ {op reply}, lost op reply → ¬refuses op reply

namespace Object

variable (object : Object σ Op Reply)

inductive Serves : σ → Event Op Reply → σ → Prop
  | carriedOut {state after : σ} {op : Op} {reply : Reply op}
      (heffect : object.effect op state after) (h : object.reports op reply after) :
      Serves state ⟨op, reply⟩ after
  | refused {state : σ} {op : Op} {reply : Reply op} (h : object.refuses op reply) :
      Serves state ⟨op, reply⟩ state
  | lostBefore {state : σ} {op : Op} {reply : Reply op} (h : object.lost op reply) :
      Serves state ⟨op, reply⟩ state
  | lostAfter {state after : σ} {op : Op} {reply : Reply op}
      (heffect : object.effect op state after) (h : object.lost op reply) :
      Serves state ⟨op, reply⟩ after

def Pauses (op : Op) : Prop :=
  ∀ ⦃state reply after⦄, object.Serves state ⟨op, reply⟩ after → after = state

end Object

/-- A sequential history: whose question was carried out, and the state it left. -/
inductive History (effect : ι → σ → σ → Prop) (start : σ) : List (ι × σ) → σ → Prop
  | nil : History effect start [] start
  | snoc {history : List (ι × σ)} {state after : σ} {i : ι}
      (h : History effect start history state) (heffect : effect i state after) :
      History effect start (history ++ [(i, after)]) after

variable {start state : σ} {effect effect' : ι → σ → σ → Prop}

/-- What every question keeps holds of all of a history. -/
theorem History.invariant {history : List (ι × σ)} (h : History effect start history state)
    (inv : σ → Prop) (hstart : inv start)
    (hkept : ∀ i before after, inv before → effect i before after → inv after) :
    inv state ∧ ∀ entry ∈ history, inv entry.2 := by
  induction h with
  | nil => exact ⟨hstart, by simp⟩
  | snoc _ heffect ih =>
      obtain ⟨hstate, hentries⟩ := ih
      have hafter := hkept _ _ _ hstate heffect
      refine ⟨hafter, fun entry hmem => ?_⟩
      rcases List.mem_append.mp hmem with hold | hnew
      · exact hentries entry hold
      · rw [List.mem_singleton.mp hnew]
        exact hafter

/-- A history of questions that each put one item at the end of a list. -/
theorem History.items {β : Type} {effect : ι → List β → List β → Prop} {made : ι → β → Prop}
    {start after : List β} {history : List (ι × List β)}
    (heffect : ∀ i before after, effect i before after →
      ∃ item, made i item ∧ after = before ++ [item])
    (h : History effect start history after) :
    ∃ items : List (ι × β), items.map Prod.fst = history.map Prod.fst ∧
      after = start ++ items.map Prod.snd ∧ (∀ entry ∈ items, made entry.1 entry.2) ∧
        ∀ entry ∈ history, ∃ item, (entry.1, item) ∈ items ∧ entry.2.getLast? = some item := by
  induction h with
  | nil => exact ⟨[], rfl, by simp, by simp, by simp⟩
  | @snoc history before after i _ hput ih =>
      obtain ⟨items, hplaces, hbefore, hmade, hentries⟩ := ih
      obtain ⟨item, hnew, hafter⟩ := heffect _ _ _ hput
      refine ⟨items ++ [(i, item)], by simp [hplaces], by simp [hafter, hbefore],
        fun entry hmem => ?_, fun entry hmem => ?_⟩
      · rcases List.mem_append.mp hmem with hold | hlast
        · exact hmade entry hold
        · rw [List.mem_singleton.mp hlast]
          exact hnew
      · rcases List.mem_append.mp hmem with hold | hlast
        · obtain ⟨item', hmem', hleft⟩ := hentries entry hold
          exact ⟨item', List.mem_append_left _ hmem', hleft⟩
        · rw [List.mem_singleton.mp hlast]
          exact ⟨item, List.mem_append_right _ (List.mem_singleton_self _), by simp [hafter]⟩

variable {object : Object σ Op Reply} {question : ι → Op}
  {outcome : (i : ι) → Reply (question i) → α} {history : List (ι × σ)} {i : ι}
  {p : Prog Op Reply α}

/-- A program that asks one question and returns what it makes of the reply.  If it was
refused it may ask again, and it may pause before. -/
inductive Insists (object : Object σ Op Reply) (question : Op) (outcome : Reply question → α) :
    Prog Op Reply α → Prop
  | ask {next : Reply question → Prog Op Reply α}
      (hrefused : ∀ reply, next reply ≠ .ret (outcome reply) → object.refuses question reply)
      (hnext : ∀ reply, next reply ≠ .ret (outcome reply) →
        Insists object question outcome (next reply)) :
      Insists object question outcome (.ask question next)
  | pause {op : Op} {next : Reply op → Prog Op Reply α} (hpauses : object.Pauses op)
      (hnext : ∀ reply, Insists object question outcome (next reply)) :
      Insists object question outcome (.ask op next)

theorem Insists.ask_of_forall {object : Object σ Op Reply} {question : Op}
    {outcome : Reply question → α} {next : Reply question → Prog Op Reply α}
    (h : ∀ reply, next reply = .ret (outcome reply) ∨
      (object.refuses question reply ∧ Insists object question outcome (next reply))) :
    Insists object question outcome (.ask question next) :=
  .ask (fun reply hne => ((h reply).resolve_left hne).1) fun reply hne =>
    ((h reply).resolve_left hne).2

/-- Where a program stands: its question has yet to be answered, or was, and then has a
place in the history if the reply reports one, and none if it was refused. -/
inductive Stands (object : Object σ Op Reply) (question : ι → Op)
    (outcome : (i : ι) → Reply (question i) → α) (history : List (ι × σ)) (i : ι) :
    Prog Op Reply α → Prop
  | waiting {p : Prog Op Reply α} (h : i ∉ history.map Prod.fst)
      (hinsists : Insists object (question i) (outcome i) p) :
      Stands object question outcome history i p
  | reported (reply : Reply (question i)) {left : σ} (h : (i, left) ∈ history)
      (hreports : object.reports (question i) reply left) :
      Stands object question outcome history i (.ret (outcome i reply))
  | refused (reply : Reply (question i)) (h : i ∉ history.map Prod.fst)
      (hrefuses : object.refuses (question i) reply) :
      Stands object question outcome history i (.ret (outcome i reply))
  | lost (reply : Reply (question i)) (hlost : object.lost (question i) reply) :
      Stands object question outcome history i (.ret (outcome i reply))

theorem Stands.append_other {j : ι} {left : σ} (h : Stands object question outcome history i p)
    (hij : i ≠ j) : Stands object question outcome (history ++ [(j, left)]) i p := by
  have hnot (hi : i ∉ history.map Prod.fst) : i ∉ (history ++ [(j, left)]).map Prod.fst := by
    simp only [List.map_append, List.map_cons, List.map_nil, List.mem_append,
      List.mem_singleton, not_or]
    exact ⟨hi, hij⟩
  induction h with
  | waiting h hinsists => exact .waiting (hnot h) hinsists
  | reported reply h hreports => exact .reported reply (List.mem_append_left _ h) hreports
  | refused reply h hrefuses => exact .refused reply (hnot h) hrefuses
  | lost reply hlost => exact .lost reply hlost

/-- Only a program that waits goes on. -/
theorem Stands.of_ask {op : Op} {next : Reply op → Prog Op Reply α}
    (h : Stands object question outcome history i (.ask op next)) :
    i ∉ history.map Prod.fst ∧ Insists object (question i) (outcome i) (.ask op next) := by
  generalize hp : Prog.ask op next = p at h ⊢
  induction h with
  | waiting h hinsists => exact ⟨h, hinsists⟩
  | reported => cases hp
  | refused => cases hp
  | lost => cases hp

/-- Where a program comes to stand by one answer: it has a new place in the history, the
last one, or the history is as it was. -/
theorem Insists.answered {op : Op} {next : Reply op → Prog Op Reply α} {reply : Reply op}
    {after : σ} (hfresh : i ∉ history.map Prod.fst)
    (h : Insists object (question i) (outcome i) (.ask op next))
    (hserves : object.Serves state ⟨op, reply⟩ after) :
    (object.effect (question i) state after ∧
        Stands object question outcome (history ++ [(i, after)]) i (next reply)) ∨
      (after = state ∧ Stands object question outcome history i (next reply)) := by
  generalize hp : Prog.ask op next = p at h
  induction h with
  | pause hpauses hnext =>
      cases hp
      exact Or.inr ⟨hpauses hserves, .waiting hfresh (hnext reply)⟩
  | @ask asked hrefused hnext =>
      cases hp
      have hdone (h : ¬object.refuses (question i) reply) :
          asked reply = .ret (outcome i reply) := by
        by_contra hne
        exact h (hrefused reply hne)
      have hplace : (i, after) ∈ history ++ [(i, after)] :=
        List.mem_append_right _ (List.mem_singleton_self _)
      cases hserves with
      | carriedOut heffect hreports =>
          rw [hdone (object.not_refuses_of_reports hreports)]
          exact Or.inl ⟨heffect, .reported reply hplace hreports⟩
      | refused hrefuses =>
          refine Or.inr ⟨rfl, ?_⟩
          by_cases hreturned : asked reply = .ret (outcome i reply)
          · rw [hreturned]
            exact .refused reply hfresh hrefuses
          · exact .waiting hfresh (hnext reply hreturned)
      | lostBefore hlost =>
          rw [hdone (object.not_refuses_of_lost hlost)]
          exact Or.inr ⟨rfl, .lost reply hlost⟩
      | lostAfter heffect hlost =>
          rw [hdone (object.not_refuses_of_lost hlost)]
          exact Or.inl ⟨heffect, .lost reply hlost⟩

variable [DecidableEq ι] {progs : ι → Prog Op Reply α} {log : List (ι × Event Op Reply)}
  {now : ι → Prog Op Reply α}

/-- Every run has a sequential history, in the order in which the questions were asked. -/
theorem linearizes (hprogs : ∀ i, Insists object (question i) (outcome i) (progs i))
    (h : Run (closed object.Serves) start progs log state now) :
    ∃ history, History (fun i => object.effect (question i)) start history state ∧
      (history.map Prod.fst).Nodup ∧ (history.map Prod.fst).Sublist (log.map Prod.fst) ∧
      ∀ i, Stands object question outcome history i (now i) := by
  induction h with
  | start =>
      exact ⟨[], .nil, List.nodup_nil, List.Sublist.slnil, fun i => .waiting (by simp) (hprogs i)⟩
  | drift _ hdrifts => exact hdrifts.elim
  | @serve log state after now _ j op next hasks reply hserves ih =>
      obtain ⟨history, hhistory, hnodup, hsublist, hstands⟩ := ih
      have hj := hstands j
      rw [hasks] at hj
      obtain ⟨hfresh, hinsists⟩ := hj.of_ask
      have hlog : ((log ++ [(j, (⟨op, reply⟩ : Event Op Reply))]).map Prod.fst) =
          log.map Prod.fst ++ [j] := by
        simp
      rw [hlog]
      -- everybody but the program that is answered stands where it stood
      have hothers (history' : List (ι × σ))
          (hown : Stands object question outcome history' j (next reply))
          (hother : ∀ i, i ≠ j → Stands object question outcome history' i (now i)) (i : ι) :
          Stands object question outcome history' i (Function.update now j (next reply) i) := by
        by_cases hij : i = j
        · subst hij
          rw [Function.update_self]
          exact hown
        · rw [Function.update_of_ne hij]
          exact hother i hij
      rcases hinsists.answered hfresh hserves with ⟨heffect, hown⟩ | ⟨rfl, hown⟩
      · refine ⟨history ++ [(j, after)], .snoc hhistory heffect, ?_, ?_,
          hothers _ hown fun i hij => (hstands i).append_other hij⟩
        · rw [List.map_append, List.map_cons, List.map_nil]
          refine List.nodup_append.mpr ⟨hnodup, List.nodup_singleton j, ?_⟩
          intro a ha b hb hab
          have haj : a = j := hab.trans (List.mem_singleton.mp hb)
          exact hfresh (haj ▸ ha)
        · rw [List.map_append, List.map_cons, List.map_nil]
          exact hsublist.append (List.Sublist.refl _)
      · exact ⟨history, hhistory, hnodup, hsublist.trans (List.sublist_append_left _ _),
          hothers _ hown fun i _ => hstands i⟩

end Library.Linearization
