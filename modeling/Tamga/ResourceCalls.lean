import Tamga.Library.Linearization
import Tamga.ServerResponses

/-!
Calls that act on one resource of the server.  The server refuses what it answers by an
error, so a call that is repeated after a 429 has its effect once or not at all, and there
is one order for all the calls that had theirs, however many run at once.
-/

namespace Tamga.ResourceCalls

open Library.Interaction
open Library.Interaction.Prog
open Library.Interleaving
open Library.Linearization
open Library.Serde
open Tamga.Client
open Tamga.RetryBounds
open Tamga.ServerResponses
open Tamga.Transport

variable {cl : Client} {σ ι α : Type}

/-- A resource, what a request may do to it, and what of it a reply shows.  A refusal is
any answer that is not a success, a 429 and a 422 alike; an answer that is lost on the
way, or whose body is, leaves open what happened. -/
def resource (effect : Request → σ → σ → Prop) (read : Response → Except cl.Error α)
    (shown : α → σ → Prop) : Object σ Op (Reply cl.reqwest) where
  effect
    | .send request, state, after => effect request state after
    | .sleep _, _, _ => False
  reports
    | .send _, .ok response, state => response.isSuccess = true ∧
        ∃ value, read response = .ok value ∧ shown value state
    | _, _, _ => False
  refuses
    | .send _, .ok response => response.isSuccess = false
    | .send _, .error _ => False
    | .sleep _, _ => True
  lost
    | .send _, .error _ => True
    | .send _, .ok response => response.isSuccess = true ∧ ∃ e, read response = .error (.http e)
    | .sleep _, _ => False
  not_refuses_of_reports := by
    rintro (request | duration) reply state
    · rcases reply with e | response
      · exact fun h => h.elim
      · rintro ⟨hsuccess, -⟩ hrefuses
        exact Bool.false_ne_true (hrefuses.symm.trans hsuccess)
    · exact fun h => h.elim
  not_refuses_of_lost := by
    rintro (request | duration) reply
    · rcases reply with e | response
      · exact fun _ h => h
      · rintro ⟨hsuccess, -⟩ hrefuses
        exact Bool.false_ne_true (hrefuses.symm.trans hsuccess)
    · exact fun h => h.elim

def outcome (read : Response → Except cl.Error α) (reply : Except cl.reqwest.Error Response) :
    Except cl.Error α :=
  (reply.mapError .http).bind read

variable {effect : Request → σ → σ → Prop} {shown : α → σ → Prop}

theorem pauses_sleep (read : Response → Except cl.Error α) (duration : Duration) :
    (resource effect read shown).Pauses (.sleep duration) := by
  intro state reply after h
  cases h with
  | carriedOut heffect => exact heffect.elim
  | refused => rfl
  | lostBefore => rfl
  | lostAfter heffect => exact heffect.elim

theorem not_isSuccess_of_throttled {response : Response}
    (h : response.status = tooManyRequests) : response.isSuccess = false := by
  rw [Response.isSuccess, h]
  rfl

/-- The loop of `send_with_retry` repeats what was refused. -/
theorem insists_sendFrom (read : Response → Except cl.Error α) (request : Request)
    (attempt : UInt32) :
    Insists (resource effect read shown) (.send request) (outcome read)
      ((cl.sendFrom request attempt).andThen fun response => .ret (read response)) := by
  induction hbudget : cl.maxRetries.toNat - attempt.toNat using Nat.strong_induction_on
    generalizing attempt with
  | _ budget ih =>
      rw [Client.sendFrom]
      refine .ask_of_forall fun reply => ?_
      cases reply with
      | error e => exact Or.inl rfl
      | ok response =>
          simp only [Except.mapError, Prog.bind]
          split
          · exact Or.inl rfl
          · rename_i h
            simp only [not_or, ne_eq, not_not, ge_iff_le, UInt32.not_le] at h
            obtain ⟨hthrottled, -, hattempt⟩ := h
            refine Or.inr ⟨not_isSuccess_of_throttled hthrottled, .pause (pauses_sleep read _) ?_⟩
            intro _
            have hlt := UInt32.lt_iff_toNat_lt.mp hattempt
            refine ih _ ?_ (attempt + 1) rfl
            rw [toNat_succ_of_lt hattempt]
            omega

theorem insists_sendJsonApi {target : String} {inner : Deserialize α} {method : Method}
    {path : String} {body : Option Json} {otp : Option String} :
    Insists (resource effect (cl.read target (envelope inner)) shown)
      (.send ⟨method, path, [], otp, body⟩) (outcome (cl.read target (envelope inner)))
      (cl.sendJsonApi target inner method path body otp) :=
  insists_sendFrom _ _ 0

theorem steps_sendJsonApi {target : String} {inner : Deserialize α} {method : Method}
    {path : String} {body : Option Json} {otp : Option String} {response : Response}
    (h : response.status ≠ tooManyRequests) :
    Steps (cl.sendJsonApi target inner method path body otp)
      [⟨.send ⟨method, path, [], otp, body⟩, .ok response⟩]
      (.ret (cl.read target (envelope inner) response)) :=
  (steps_sendWithRetry h).bind (.refl _)

variable {target : String} {inner : Deserialize α} {request : ι → Request}
  {history : List (ι × σ)} {i : ι}

section Standing

theorem shown_of_ok {value : α}
    (h : Stands (resource effect (cl.read target inner) shown) (fun i => .send (request i))
      (fun _ => outcome (cl.read target inner)) history i (.ret (.ok value))) :
    ∃ left, (i, left) ∈ history ∧ shown value left := by
  generalize hp : (Prog.ret (.ok value) : cl.Call α) = p at h
  induction h with
  | waiting _ hinsists =>
      rw [← hp] at hinsists
      cases hinsists
  | @reported reply left hmem hreports =>
      rcases reply with e | response
      · exact hreports.elim
      · obtain ⟨-, read, hread, hshown⟩ := hreports
        have hok : Except.ok value = cl.read target inner response := Prog.ret.inj hp
        rw [hread, Except.ok.injEq] at hok
        exact ⟨left, hmem, hok ▸ hshown⟩
  | refused reply _ hrefuses =>
      rcases reply with e | response
      · exact hrefuses.elim
      · have hok : Except.ok value = cl.read target inner response := Prog.ret.inj hp
        rw [Client.read, if_neg (Bool.eq_false_iff.mp hrefuses)] at hok
        cases hok
  | lost reply hlost =>
      rcases reply with e | response
      · cases hp
      · obtain ⟨-, e, hread⟩ := hlost
        have hok : Except.ok value = cl.read target inner response := Prog.ret.inj hp
        rw [hread] at hok
        cases hok

/-- A call that fails, other than in transport, has changed nothing. -/
theorem absent_of_error {err : cl.Error} (herr : ∀ e, err ≠ .http e)
    (h : Stands (resource effect (cl.read target inner) shown) (fun i => .send (request i))
      (fun _ => outcome (cl.read target inner)) history i (.ret (.error err))) :
    i ∉ history.map Prod.fst := by
  generalize hp : (Prog.ret (.error err) : cl.Call α) = p at h
  induction h with
  | waiting h _ => exact h
  | @reported reply left hmem hreports =>
      rcases reply with e | response
      · exact hreports.elim
      · obtain ⟨-, read, hread, -⟩ := hreports
        have herror : Except.error err = cl.read target inner response := Prog.ret.inj hp
        rw [hread] at herror
        cases herror
  | refused _ h _ => exact h
  | lost reply hlost =>
      rcases reply with e | response
      · exact absurd (Except.error.inj (Prog.ret.inj hp)) (herr e)
      · obtain ⟨-, e, hread⟩ := hlost
        have herror : Except.error err = cl.read target inner response := Prog.ret.inj hp
        rw [hread] at herror
        exact absurd (Except.error.inj herror) (herr e)

end Standing

variable [DecidableEq ι] {call : ι → cl.Call α} {start state : σ}
  {log : List (ι × Event Op (Reply cl.reqwest))} {now : ι → cl.Call α}

/-- The calls and the resource are those of a sequential history. -/
theorem calls_linearize
    (hcall : ∀ i, Insists (resource effect (cl.read target inner) shown) (.send (request i))
      (outcome (cl.read target inner)) (call i))
    (h : Run (closed (resource effect (cl.read target inner) shown).Serves) start call log
      state now) :
    ∃ history : List (ι × σ), History (fun i => effect (request i)) start history state ∧
      (history.map Prod.fst).Nodup ∧ (history.map Prod.fst).Sublist (log.map Prod.fst) ∧
      (∀ i value, now i = .ret (.ok value) → ∃ left, (i, left) ∈ history ∧ shown value left) ∧
      ∀ i err, now i = .ret (.error err) → (∀ e, err ≠ .http e) → i ∉ history.map Prod.fst := by
  obtain ⟨history, hhistory, hnodup, hsublist, hstands⟩ := linearizes hcall h
  refine ⟨history, hhistory, hnodup, hsublist, ?_, ?_⟩
  · intro i value hnow
    exact shown_of_ok (hnow ▸ hstands i)
  · intro i err hnow herr
    exact absent_of_error herr (hnow ▸ hstands i)

/-- Calls that are each issued one item of a list, and show it: each adds one item or none,
in one order, and the one that it returns is its own. -/
theorem calls_issue_once {β : Type} {effect : Request → List β → List β → Prop} {item : α → β}
    {made : ι → β → Prop} {issued after : List β}
    (hcall : ∀ i, Insists (resource effect (cl.read target inner) fun value issued =>
        issued.getLast? = some (item value))
      (.send (request i)) (outcome (cl.read target inner)) (call i))
    (heffect : ∀ i before after, effect (request i) before after →
      ∃ item, made i item ∧ after = before ++ [item])
    (h : Run (closed (resource effect (cl.read target inner) fun value issued =>
        issued.getLast? = some (item value)).Serves) issued call log after now) :
    ∃ items : List (ι × β), (items.map Prod.fst).Nodup ∧
      (items.map Prod.fst).Sublist (log.map Prod.fst) ∧ after = issued ++ items.map Prod.snd ∧
      (∀ entry ∈ items, made entry.1 entry.2) ∧
      (∀ i value, now i = .ret (.ok value) → (i, item value) ∈ items) ∧
      ∀ i err, now i = .ret (.error err) → (∀ e, err ≠ .http e) → i ∉ items.map Prod.fst := by
  obtain ⟨history, hhistory, hnodup, hsublist, hok, herror⟩ := calls_linearize hcall h
  obtain ⟨items, hplaces, hafter, hmade, hentries⟩ := hhistory.items heffect
  rw [← hplaces] at hnodup hsublist
  refine ⟨items, hnodup, hsublist, hafter, hmade, ?_, ?_⟩
  · intro i value hnow
    obtain ⟨left, hmem, hshown⟩ := hok i value hnow
    obtain ⟨own, hplace, hlast⟩ := hentries (i, left) hmem
    obtain rfl := Option.some.inj (hlast.symm.trans hshown)
    exact hplace
  · intro i err hnow herr
    rw [hplaces]
    exact herror i err hnow herr

end Tamga.ResourceCalls
