import Mathlib.Algebra.Ring.Nat
import Tamga.Client

namespace Tamga.RetryBounds

open Library.Text
open Library.Serde
open Library.Interaction
open Library.Interaction.Prog
open Tamga.Dependencies
open Tamga.ApiErrors
open Tamga.Transport
open Tamga.Client

section Exchanges

variable {R : Reqwest}

def requests (events : List (Event Op (Reply R))) : List Request :=
  events.filterMap fun
    | ⟨.send request, _⟩ => some request
    | ⟨.sleep _, _⟩ => none

def outcomes (events : List (Event Op (Reply R))) : List (Except R.Error Response) :=
  events.filterMap fun
    | ⟨.send _, reply⟩ => some reply
    | ⟨.sleep _, _⟩ => none

def waits (events : List (Event Op (Reply R))) : List Duration :=
  events.filterMap fun
    | ⟨.send _, _⟩ => none
    | ⟨.sleep duration, _⟩ => some duration

variable {front back events : List (Event Op (Reply R))} {request : Request}
  {reply : Except R.Error Response} {duration : Duration}

@[simp] theorem requests_nil : requests ([] : List (Event Op (Reply R))) = [] := rfl

@[simp] theorem requests_send :
    requests (⟨.send request, reply⟩ :: events) = request :: requests events := rfl

@[simp] theorem requests_sleep :
    requests (⟨.sleep duration, ()⟩ :: events) = requests events := rfl

@[simp] theorem requests_append :
    requests (front ++ back) = requests front ++ requests back :=
  List.filterMap_append

@[simp] theorem outcomes_nil : outcomes ([] : List (Event Op (Reply R))) = [] := rfl

@[simp] theorem outcomes_send :
    outcomes (⟨.send request, reply⟩ :: events) = reply :: outcomes events := rfl

@[simp] theorem outcomes_sleep :
    outcomes (⟨.sleep duration, ()⟩ :: events) = outcomes events := rfl

@[simp] theorem outcomes_append :
    outcomes (front ++ back) = outcomes front ++ outcomes back :=
  List.filterMap_append

theorem mem_requests (h : (⟨.send request, reply⟩ : Event Op (Reply R)) ∈ events) :
    request ∈ requests events :=
  List.mem_filterMap.mpr ⟨_, h, rfl⟩

theorem mem_of_mem_outcomes (h : reply ∈ outcomes events) :
    ∃ request, (⟨.send request, reply⟩ : Event Op (Reply R)) ∈ events := by
  obtain ⟨⟨op, answer⟩, hmem, hsome⟩ := List.mem_filterMap.mp h
  cases op with
  | sleep => cases hsome
  | send request =>
      obtain rfl := Option.some.inj hsome
      exact ⟨request, hmem⟩

@[simp] theorem waits_nil : waits ([] : List (Event Op (Reply R))) = [] := rfl

@[simp] theorem waits_send : waits (⟨.send request, reply⟩ :: events) = waits events := rfl

@[simp] theorem waits_sleep :
    waits (⟨.sleep duration, ()⟩ :: events) = duration :: waits events := rfl

end Exchanges

section Delay

/-- The wait after retry number `attempt`: what the server asked for, up to a
minute, or else from `2 ^ min attempt 5` seconds to less than a second more. -/
def WaitBounds (attempt : Nat) (retryAfter : Option UInt64) (wait : Duration) : Prop :=
  wait.millis ≤ 60000 ∧
    match retryAfter with
    | some secs => wait.millis = min secs.toNat 60 * 1000
    | none => 2 ^ min attempt 5 * 1000 ≤ wait.millis ∧
        wait.millis < (2 ^ min attempt 5 + 1) * 1000

theorem toNat_min_five (attempt : UInt32) : (min attempt 5).toNat = min attempt.toNat 5 := by
  change (if attempt ≤ 5 then attempt else 5).toNat = _
  split
  · rename_i h
    exact (Nat.min_eq_left (UInt32.le_iff_toNat_le.mp h)).symm
  · rename_i h
    have hlt := UInt32.lt_iff_toNat_lt.mp (UInt32.not_le.mp h)
    exact (Nat.min_eq_right (Nat.le_of_lt hlt)).symm

theorem toNat_min_sixty (secs : UInt64) : (min secs 60).toNat = min secs.toNat 60 := by
  change (if secs ≤ 60 then secs else 60).toNat = _
  split
  · rename_i h
    exact (Nat.min_eq_left (UInt64.le_iff_toNat_le.mp h)).symm
  · rename_i h
    have hlt := UInt64.lt_iff_toNat_lt.mp (UInt64.not_le.mp h)
    exact (Nat.min_eq_right (Nat.le_of_lt hlt)).symm

theorem pow_min_five_le (attempt : Nat) : 2 ^ min attempt 5 ≤ 32 :=
  Nat.pow_le_pow_right (n := 2) (by decide) (Nat.min_le_right attempt 5)

/-- The shift stays within the word, so the base is the power that it stands for. -/
theorem toNat_backoffBase (attempt : UInt32) :
    ((1 : UInt64) <<< (min attempt 5).toUInt64).toNat = 2 ^ min attempt.toNat 5 := by
  have hpow := pow_min_five_le attempt.toNat
  have hshift : min attempt.toNat 5 % 64 = min attempt.toNat 5 :=
    Nat.mod_eq_of_lt (by omega)
  rw [UInt64.toNat_shiftLeft, UInt32.toNat_toUInt64, toNat_min_five, UInt64.toNat_one, hshift,
    Nat.shiftLeft_eq, Nat.one_mul, Nat.mod_eq_of_lt (by omega)]

theorem millis_retryDelay_none (cl : Client) (attempt : UInt32) :
    (cl.retryDelay attempt none).millis =
      2 ^ min attempt.toNat 5 * 1000 + (jitterMillis cl.processId attempt).toNat := by
  have hpow := pow_min_five_le attempt.toNat
  have hjitter := jitterMillis_lt cl.processId attempt
  simp only [Client.retryDelay, Duration.fromMillis]
  have hsecs : ((1 : UInt64) <<< (min attempt 5).toUInt64 * 1000).toNat =
      2 ^ min attempt.toNat 5 * 1000 := by
    rw [UInt64.toNat_mul, toNat_backoffBase]
    exact Nat.mod_eq_of_lt (by simp only [UInt64.reduceToNat]; omega)
  rw [UInt64.toNat_add, hsecs]
  exact Nat.mod_eq_of_lt (by omega)

theorem retryDelay_bounds (cl : Client) (attempt : UInt32) (retryAfter : Option UInt64) :
    WaitBounds attempt.toNat retryAfter (cl.retryDelay attempt retryAfter) := by
  cases retryAfter with
  | some secs =>
      have hmillis : (cl.retryDelay attempt (some secs)).millis = min secs.toNat 60 * 1000 := by
        simp only [Client.retryDelay, Duration.fromSecs, toNat_min_sixty]
      refine ⟨?_, hmillis⟩
      rw [hmillis]
      omega
  | none =>
      have hpow := pow_min_five_le attempt.toNat
      have hjitter := jitterMillis_lt cl.processId attempt
      have hmillis := millis_retryDelay_none cl attempt
      refine ⟨?_, ?_, ?_⟩ <;> rw [hmillis] <;> omega

end Delay

section Sending

variable {cl : Client}

def Throttles (cl : Client) (request : Request) (attempt : UInt32) (response : Response) :
    Prop :=
  response.status = tooManyRequests ∧ isRetryable request.method request.path = true ∧
    attempt < cl.maxRetries

/-- A run of the loop from retry number `attempt` on, cut off anywhere. -/
inductive Sending (cl : Client) (request : Request) :
    UInt32 → List cl.Exchange → Option (Except cl.Error Response) → Prop
  | idle (attempt : UInt32) : Sending cl request attempt [] none
  | answered {attempt : UInt32} {reply : Except cl.reqwest.Error Response}
      (h : ∀ response, reply = .ok response → ¬ Throttles cl request attempt response) :
      Sending cl request attempt [⟨.send request, reply⟩] (some (reply.mapError .http))
  | waiting {attempt : UInt32} {response : Response}
      (h : Throttles cl request attempt response) :
      Sending cl request attempt [⟨.send request, .ok response⟩] none
  | again {attempt : UInt32} {response : Response} {events : List cl.Exchange}
      {result : Option (Except cl.Error Response)}
      (h : Throttles cl request attempt response)
      (rest : Sending cl request (attempt + 1) events result) :
      Sending cl request attempt
        (⟨.send request, .ok response⟩ ::
          ⟨.sleep (cl.retryDelay attempt (parseRetryAfter response)), ()⟩ :: events) result

theorem toNat_succ_of_lt {attempt limit : UInt32} (h : attempt < limit) :
    (attempt + 1).toNat = attempt.toNat + 1 := by
  have hlt := UInt32.lt_iff_toNat_lt.mp h
  have hlimit := limit.toNat_lt
  rw [UInt32.toNat_add, UInt32.toNat_one]
  exact Nat.mod_eq_of_lt (by omega)

theorem not_throttles_iff {request : Request} {attempt : UInt32} {response : Response} :
    ¬ Throttles cl request attempt response ↔
      response.status ≠ tooManyRequests ∨ isRetryable request.method request.path = false ∨
        attempt ≥ cl.maxRetries := by
  rw [Throttles]
  simp only [not_and_or, Bool.not_eq_true, UInt32.not_lt, ge_iff_le, ne_eq]

theorem meets_sendFrom (request : Request) (attempt : UInt32) :
    Meets (cl.sendFrom request attempt) (Sending cl request attempt) := by
  induction hbudget : cl.maxRetries.toNat - attempt.toNat using Nat.strong_induction_on
    generalizing attempt with
  | _ budget ih =>
      rw [Client.sendFrom]
      refine meets_ask (.idle attempt) ?_
      intro reply
      cases reply with
      | error err => exact meets_ret (.answered fun _ h => by cases h)
      | ok response =>
          simp only [Except.mapError, Prog.bind]
          split
          · rename_i h
            refine meets_ret (.answered ?_)
            rintro _ ⟨⟩
            exact not_throttles_iff.mpr h
          · rename_i h
            have hthrottles : Throttles cl request attempt response :=
              Classical.not_not.mp fun hnot => h (not_throttles_iff.mp hnot)
            have hlt := UInt32.lt_iff_toNat_lt.mp hthrottles.2.2
            refine meets_ask (.waiting hthrottles) ?_
            rintro ⟨⟩
            refine (ih _ ?_ (attempt + 1) rfl).mono ?_
            · rw [toNat_succ_of_lt hthrottles.2.2]
              omega
            · intro events result hrest
              exact .again hthrottles hrest

variable {request : Request} {attempt : UInt32} {events : List cl.Exchange}
  {result : Option (Except cl.Error Response)}

theorem Sending.requests_eq (h : Sending cl request attempt events result) :
    requests events = List.replicate (outcomes events).length request := by
  induction h with
  | idle => rfl
  | answered => rfl
  | waiting => rfl
  | again _ _ ih =>
      simp only [requests_send, requests_sleep, outcomes_send, outcomes_sleep, List.length_cons,
        List.replicate_succ, ih]

theorem Sending.length_le (h : Sending cl request attempt events result) :
    (outcomes events).length ≤
      if isRetryable request.method request.path then 1 + (cl.maxRetries.toNat - attempt.toNat)
      else 1 := by
  induction h with
  | idle => exact Nat.zero_le _
  | answered => split <;> simp
  | waiting => split <;> simp
  | again h _ ih =>
      have hlt := UInt32.lt_iff_toNat_lt.mp h.2.2
      rw [if_pos h.2.1, toNat_succ_of_lt h.2.2] at ih
      rw [if_pos h.2.1]
      simp only [outcomes_send, outcomes_sleep, List.length_cons]
      omega

theorem Sending.length_outcomes_le (h : Sending cl request attempt events result) :
    (outcomes events).length ≤ (waits events).length + 1 := by
  induction h with
  | idle => exact Nat.zero_le _
  | answered => exact Nat.le_refl _
  | waiting => exact Nat.le_refl _
  | again _ _ ih =>
      simp only [outcomes_send, outcomes_sleep, waits_send, waits_sleep, List.length_cons]
      omega

/-- The answer returned comes after answers that were all waited out. -/
theorem Sending.returned (h : Sending cl request attempt events result)
    {outcome : Except cl.Error Response} (hresult : result = some outcome) :
    ∃ (throttled : List Response) (last : Except cl.reqwest.Error Response),
      outcomes events = throttled.map .ok ++ [last] ∧
        (∀ response ∈ throttled, response.status = tooManyRequests) ∧
          outcome = last.mapError .http := by
  induction h with
  | idle => cases hresult
  | @answered _ reply =>
      cases hresult
      exact ⟨[], reply, rfl, fun _ hmem => (List.not_mem_nil hmem).elim, rfl⟩
  | waiting => cases hresult
  | @again _ response _ _ h _ ih =>
      obtain ⟨throttled, last, houtcomes, hthrottled, houtcome⟩ := ih hresult
      refine ⟨response :: throttled, last, ?_, ?_, houtcome⟩
      · simp only [outcomes_send, outcomes_sleep, houtcomes, List.map_cons, List.cons_append]
      · rintro _ (_ | ⟨_, hmem⟩)
        · exact h.1
        · exact hthrottled _ hmem

theorem Sending.exhausted (h : Sending cl request attempt events result) {response : Response}
    (hresult : result = some (.ok response)) (hstatus : response.status = tooManyRequests)
    (hretryable : isRetryable request.method request.path = true) :
    (outcomes events).length = 1 + (cl.maxRetries.toNat - attempt.toNat) := by
  induction h with
  | idle => cases hresult
  | @answered _ reply h =>
      cases reply with
      | error => cases hresult
      | ok =>
          cases hresult
          have hle : ¬ _ < cl.maxRetries := fun hlt => h response rfl ⟨hstatus, hretryable, hlt⟩
          rw [UInt32.not_lt, UInt32.le_iff_toNat_le] at hle
          simp only [outcomes_send, outcomes_nil, List.length_cons, List.length_nil]
          omega
  | waiting => cases hresult
  | again h _ ih =>
      have hlt := UInt32.lt_iff_toNat_lt.mp h.2.2
      have hrest := ih hresult
      rw [toNat_succ_of_lt h.2.2] at hrest
      simp only [outcomes_send, outcomes_sleep, List.length_cons, hrest]
      omega

theorem Sending.wait_bounds (h : Sending cl request attempt events result) {k : Nat}
    {wait : Duration} (hwait : (waits events)[k]? = some wait) :
    ∃ response, (outcomes events)[k]? = some (.ok response) ∧
      response.status = tooManyRequests ∧
        WaitBounds (attempt.toNat + k) (parseRetryAfter response) wait := by
  induction h generalizing k with
  | idle => cases hwait
  | answered => cases hwait
  | waiting => cases hwait
  | @again attempt response _ _ h _ ih =>
      simp only [waits_send, waits_sleep, outcomes_send, outcomes_sleep] at hwait ⊢
      cases k with
      | zero =>
          rw [List.getElem?_cons_zero, Option.some.injEq] at hwait
          subst hwait
          exact ⟨response, List.getElem?_cons_zero, h.1, retryDelay_bounds cl attempt _⟩
      | succ k =>
          rw [List.getElem?_cons_succ] at hwait
          obtain ⟨later, hlater, hstatus, hbounds⟩ := ih hwait
          refine ⟨later, List.getElem?_cons_succ.trans hlater, hstatus, ?_⟩
          rw [toNat_succ_of_lt h.2.2] at hbounds
          rwa [Nat.add_right_comm, Nat.add_assoc] at hbounds

end Sending

section Calls

variable {cl : Client}

/-- What the loop promises of every run, finished or not. -/
structure Bounded (cl : Client) (request : Request) (events : List cl.Exchange)
    (result : Option (Except cl.Error Response)) : Prop where
  same : requests events = List.replicate (outcomes events).length request
  budget : (outcomes events).length ≤
    if isRetryable request.method request.path then 1 + cl.maxRetries.toNat else 1
  single : isRetryable request.method request.path = false → result ≠ none →
    (outcomes events).length = 1
  returned : ∀ outcome, result = some outcome →
    ∃ (throttled : List Response) (last : Except cl.reqwest.Error Response),
      outcomes events = throttled.map .ok ++ [last] ∧
        (∀ response ∈ throttled, response.status = tooManyRequests) ∧
          outcome = last.mapError .http
  exhausted : ∀ response, result = some (.ok response) → response.status = tooManyRequests →
    isRetryable request.method request.path = true →
      (outcomes events).length = 1 + cl.maxRetries.toNat
  waited : (outcomes events).length ≤ (waits events).length + 1
  waits : ∀ k wait, (waits events)[k]? = some wait →
    ∃ response, (outcomes events)[k]? = some (.ok response) ∧
      response.status = tooManyRequests ∧
        WaitBounds k (parseRetryAfter response) wait

theorem Sending.bounded {request : Request} {events : List cl.Exchange}
    {result : Option (Except cl.Error Response)} (h : Sending cl request 0 events result) :
    Bounded cl request events result where
  same := h.requests_eq
  budget := h.length_le
  single hretryable hresult := by
    obtain ⟨outcome, houtcome⟩ := Option.ne_none_iff_exists'.mp hresult
    obtain ⟨throttled, last, houtcomes, -⟩ := h.returned houtcome
    have hlength := h.length_le
    rw [hretryable, if_neg Bool.false_ne_true] at hlength
    simp only [houtcomes, List.length_append, List.length_map, List.length_singleton] at hlength ⊢
    omega
  returned _ := h.returned
  exhausted _ := h.exhausted
  waited := h.length_outcomes_le
  waits k wait hwait := by
    simpa only [UInt32.toNat_zero, Nat.zero_add] using h.wait_bounds hwait

theorem meets_sendWithRetry (request : Request) :
    Meets (cl.sendWithRetry request) (Sending cl request 0) :=
  meets_sendFrom request 0

theorem returns_sendFrom (request : Request) (attempt : UInt32) :
    (cl.sendFrom request attempt).Returns := by
  induction hbudget : cl.maxRetries.toNat - attempt.toNat using Nat.strong_induction_on
    generalizing attempt with
  | _ budget ih =>
      rw [Client.sendFrom]
      refine .ask fun reply => ?_
      cases reply with
      | error err => exact .ret _
      | ok response =>
          simp only [Except.mapError, Prog.bind]
          split
          · exact .ret _
          · rename_i h
            simp only [not_or, ge_iff_le, UInt32.not_le] at h
            have hlt := UInt32.lt_iff_toNat_lt.mp h.2.2
            refine .ask fun _ => ih _ ?_ (attempt + 1) rfl
            rw [toNat_succ_of_lt h.2.2]
            omega

theorem returns_listMachines (opts : ListMachinesOptions cl.json) :
    (cl.listMachines opts).Returns :=
  .andThen (returns_sendFrom _ 0) fun _ => .ret _

section Asks

variable {α β : Type} {kind : Request → Prop}

/-- Every request that a run of `p` sends is of the kind. -/
def Asks (kind : Request → Prop) (p : cl.Io α) : Prop :=
  Meets p fun events _ => ∀ request ∈ requests events, kind request

theorem forall_requests_append {front back : List cl.Exchange} :
    (∀ request ∈ requests (front ++ back), kind request) ↔
      (∀ request ∈ requests front, kind request) ∧ ∀ request ∈ requests back, kind request := by
  rw [requests_append]
  exact List.forall_mem_append

theorem asks_ret (value : α) : Asks kind (.ret value : cl.Io α) :=
  meets_ret nofun

theorem Asks.bind {p : cl.Io α} {f : α → cl.Io β} (hp : Asks kind p)
    (hf : ∀ a, Asks kind (f a)) : Asks kind (p.bind f) := by
  refine meets_bind hp (fun _ h => h) fun _ a hfront => (hf a).mono ?_
  intro back _ hback
  exact forall_requests_append.mpr ⟨hfront, hback⟩

theorem Asks.andThen {p : cl.Call α} {f : α → cl.Call β} (hp : Asks kind p)
    (hf : ∀ a, Asks kind (f a)) : Asks kind (p.andThen f) := by
  refine hp.bind fun outcome => ?_
  cases outcome with
  | ok a => exact hf a
  | error err => exact asks_ret _

theorem asks_sendWithRetry {request : Request} (h : kind request) :
    Asks kind (cl.sendWithRetry request) := by
  refine (meets_sendWithRetry request).mono ?_
  intro events result hsending sent hmem
  rw [hsending.requests_eq] at hmem
  rwa [List.eq_of_mem_replicate hmem]

theorem asks_listMachines {opts : ListMachinesOptions cl.json}
    (h : kind (cl.listMachinesRequest opts)) : Asks kind (cl.listMachines opts) :=
  (asks_sendWithRetry h).andThen fun _ => asks_ret _

theorem asks_findFrom {licenseId : cl.json.Uuid} {fingerprint : String}
    (h : ∀ pageNumber,
      kind (cl.listMachinesRequest (cl.searchPage licenseId fingerprint pageNumber)))
    (pages : Nat) (pageNumber : Int64) :
    Asks kind (cl.findFrom licenseId fingerprint pages pageNumber) := by
  induction pages generalizing pageNumber with
  | zero => exact meets_stop nofun
  | succ pages ih =>
      refine (asks_listMachines (h pageNumber)).andThen fun page => ?_
      split
      · exact asks_ret _
      · split
        · exact ih _
        · exact asks_ret _

end Asks

theorem isRetryable_machines : isRetryable .post "/machines" = false := by decide

end Calls

end Tamga.RetryBounds
