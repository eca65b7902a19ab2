import Tamga.Library.CheckedSums
import Tamga.Library.Paging
import Tamga.ServerResponses

namespace Tamga.MachineSearch

open Library.Text
open Library.Interaction.Prog
open Library.CheckedSums
open Library.Paging
open Tamga.Models
open Tamga.ApiModels
open Tamga.ApiErrors
open Tamga.Transport
open Tamga.Client
open Tamga.RetryBounds
open Tamga.ServerResponses

variable {cl : Client}

section Answered

/-- An answer that the retry loop may wait out. -/
def isThrottled {E : Type} : Except E Response → Bool
  | .ok response => response.status = tooManyRequests
  | .error _ => false

def answered (events : List cl.Exchange) : List (Request × Except cl.reqwest.Error Response) :=
  events.filterMap fun
    | ⟨.send request, reply⟩ => if isThrottled reply then none else some (request, reply)
    | ⟨.sleep _, _⟩ => none

theorem answered_append (front back : List cl.Exchange) :
    answered (front ++ back) = answered front ++ answered back :=
  List.filterMap_append

theorem answered_send_of_throttled {request : Request} {response : Response}
    {events : List cl.Exchange} (h : response.status = tooManyRequests) :
    answered (⟨.send request, .ok response⟩ :: events) = answered events :=
  List.filterMap_cons_none (if_pos (decide_eq_true h))

theorem answered_send {request : Request} {reply : Except cl.reqwest.Error Response}
    {events : List cl.Exchange} (h : isThrottled reply = false) :
    answered (⟨.send request, reply⟩ :: events) = (request, reply) :: answered events :=
  List.filterMap_cons_some (if_neg (Bool.eq_false_iff.mp h))

/-- A call has one answer when it is over, unless it gave up on a 429. -/
theorem answered_of_sending {request : Request} {attempt : UInt32} {events : List cl.Exchange}
    {result : Option (Except cl.Error Response)}
    (h : Sending cl request attempt events result) :
    (answered events = [] ∧
        ∀ outcome, result = some outcome →
          ∃ response, outcome = .ok response ∧ response.status = tooManyRequests ∧
            .ok response ∈ outcomes events) ∨
      ∃ reply, isThrottled reply = false ∧ answered events = [(request, reply)] ∧
        result = some (reply.mapError .http) := by
  induction h with
  | idle => exact Or.inl ⟨rfl, fun _ h => by cases h⟩
  | @answered _ reply _ =>
      cases hthrottled : isThrottled reply with
      | false => exact Or.inr ⟨reply, hthrottled, answered_send hthrottled, rfl⟩
      | true =>
          cases reply with
          | error => cases hthrottled
          | ok response =>
              have hstatus : response.status = tooManyRequests := of_decide_eq_true hthrottled
              refine Or.inl ⟨answered_send_of_throttled hstatus, ?_⟩
              rintro _ ⟨⟩
              exact ⟨response, rfl, hstatus, List.mem_cons_self⟩
  | waiting h => exact Or.inl ⟨answered_send_of_throttled h.1, fun _ h => by cases h⟩
  | again h _ ih =>
      rw [answered_send_of_throttled h.1]
      refine ih.imp_left ?_
      rintro ⟨hnone, hgaveUp⟩
      refine ⟨hnone, fun outcome houtcome => ?_⟩
      obtain ⟨response, houtcome, hstatus, hmem⟩ := hgaveUp outcome houtcome
      exact ⟨response, houtcome, hstatus, List.mem_cons_of_mem _ hmem⟩

end Answered

section Pages

variable {licenseId : cl.json.Uuid} {fingerprint : String}

def searchRequest (cl : Client) (licenseId : cl.json.Uuid) (fingerprint : String)
    (pageNumber : Int64) : Request :=
  cl.listMachinesRequest (cl.searchPage licenseId fingerprint pageNumber)

/-- `page` is the page of `rows` after the first `k`, as the server describes it. -/
structure IsPage (rows : List (MachineResource cl.json)) (k : Nat)
    (page : OffsetPage (MachineResource cl.json)) : Prop where
  items : page.items = Library.Paging.page 100 rows k
  number : page.page.number.toInt = k + 1
  size : page.page.size = maxOffsetPageSize
  total : page.page.total.toInt = rows.length
  totalPages : page.page.totalPages.toInt = pageCount 100 rows

/-- A request for a page of the search, and that page of `rows`. -/
def AnswersFrom (licenseId : cl.json.Uuid) (fingerprint : String)
    (rows : List (MachineResource cl.json)) (request : Request)
    (reply : Except cl.reqwest.Error Response) : Prop :=
  ∃ (k : Nat) (number : Int64) (response : Response)
    (page : OffsetPage (MachineResource cl.json)),
    request = searchRequest cl licenseId fingerprint number ∧ number.toInt = k + 1 ∧
      reply = .ok response ∧ cl.readMachinePage response = .ok page ∧ IsPage rows k page

/-- The requests are answered, apart from 429, from one listing after the other. -/
def Served (licenseId : cl.json.Uuid) (fingerprint : String)
    (listing : Nat → List (MachineResource cl.json)) (events : List cl.Exchange) : Prop :=
  ∀ i request reply, (answered events)[i]? = some (request, reply) →
    AnswersFrom licenseId fingerprint (listing i) request reply

theorem toInt_succ_of_lt {a b : Int64} (h : a < b) : (a + 1).toInt = a.toInt + 1 := by
  rw [toInt_add_of_not_overflows (not_overflows_one_of_lt h), Int64.toInt_one]

theorem nextPageNumber_of_isPage {rows : List (MachineResource cl.json)} {k : Nat}
    {page : OffsetPage (MachineResource cl.json)} (h : IsPage rows k page) :
    match page.nextPageNumber with
    | some next => next.toInt = (k + 1 : Nat) + 1 ∧ k + 1 < pageCount 100 rows
    | none => pageCount 100 rows ≤ k + 1 := by
  have hlt : page.page.number < page.page.totalPages ↔ k + 1 < pageCount 100 rows := by
    rw [Int64.lt_iff_toInt_lt, h.number, h.totalPages]
    omega
  rw [OffsetPage.nextPageNumber]
  by_cases hmore : page.page.number < page.page.totalPages
  · rw [if_pos hmore]
    refine ⟨?_, hlt.mp hmore⟩
    rw [toInt_succ_of_lt hmore, h.number]
    omega
  · rw [if_neg hmore]
    exact Nat.le_of_not_lt fun h => hmore (hlt.mpr h)

theorem searchRequest_inj {a b : Int64} {j k : Nat} (ha : a.toInt = j + 1) (hb : b.toInt = k + 1)
    (h : searchRequest cl licenseId fingerprint a = searchRequest cl licenseId fingerprint b) :
    j = k := by
  have hquery := congrArg Request.query h
  simp only [searchRequest, Client.listMachinesRequest, Client.searchPage, Option.toList_some,
    Option.toList_none, List.map_cons, List.map_nil, List.cons_append, List.nil_append,
    List.cons.injEq, Prod.mk.injEq, true_and, and_true, ha, hb] at hquery
  have hnumber := toString_natCast_inj (m := j + 1) (n := k + 1) hquery
  omega

theorem readMachinePage_throttled {response : Response}
    (h : response.status = tooManyRequests) :
    cl.readMachinePage response = .error (.rateLimited (parseRetryAfter response)
      (ResponseInfo.fromHeaders response.headers)) :=
  read_throttled h

def GaveUp (events : List cl.Exchange) (err : cl.Error) : Prop :=
  ∃ response, .ok response ∈ outcomes events ∧ response.status = tooManyRequests ∧
    err = .rateLimited (parseRetryAfter response) (ResponseInfo.fromHeaders response.headers)

theorem GaveUp.append {front back : List cl.Exchange} {err : cl.Error} (h : GaveUp back err) :
    GaveUp (front ++ back) err := by
  obtain ⟨response, hmem, hstatus, herr⟩ := h
  refine ⟨response, ?_, hstatus, herr⟩
  rw [outcomes_append]
  exact List.mem_append_right _ hmem

theorem steps_listMachines {rows : List (MachineResource cl.json)} {k : Nat} {number : Int64}
    (hnumber : number.toInt = k + 1) {events : List cl.Exchange}
    {q : cl.Call (OffsetPage (MachineResource cl.json))}
    (hsteps : Steps (cl.listMachines (cl.searchPage licenseId fingerprint number)) events q)
    (hserved : ∀ request reply, (answered events)[0]? = some (request, reply) →
      AnswersFrom licenseId fingerprint rows request reply) :
    (answered events = [] ∧ ∀ outcome, q.value? = some outcome →
        ∃ err, outcome = .error err ∧ GaveUp events err) ∨
      ∃ page reply, answered events = [(searchRequest cl licenseId fingerprint number, reply)] ∧
        q = .ret (.ok page) ∧ IsPage rows k page := by
  obtain ⟨sent, hsending, hvalue⟩ :=
    meets_andThen_ret (meets_sendWithRetry _) events q hsteps
  rcases answered_of_sending hsending with ⟨hnone, hgaveUp⟩ | ⟨reply, -, hone, rfl⟩
  · refine Or.inl ⟨hnone, fun outcome houtcome => ?_⟩
    rw [hvalue] at houtcome
    obtain ⟨_, hsent, rfl⟩ := Option.map_eq_some_iff.mp houtcome
    obtain ⟨response, rfl, hstatus, hmem⟩ := hgaveUp _ hsent
    exact ⟨_, readMachinePage_throttled hstatus, response, hmem, hstatus, rfl⟩
  · obtain ⟨j, other, response, page, hrequest, hother, rfl, hread, hpage⟩ :=
      hserved _ reply (by rw [hone]; rfl)
    obtain rfl := searchRequest_inj hnumber hother hrequest
    refine Or.inr ⟨page, .ok response, hone, ?_, hpage⟩
    rw [← value?_eq_some_iff, hvalue]
    exact congrArg some hread

end Pages

section Search

variable {licenseId : cl.json.Uuid} {fingerprint : String}
  {listing : Nat → List (MachineResource cl.json)}

def hasFingerprint (fingerprint : String) (machine : MachineResource cl.json) : Bool :=
  machine.attributes.fingerprint == fingerprint

def Passed (fingerprint : String) (rows : List (MachineResource cl.json)) (k : Nat) : Prop :=
  (page 100 rows k).find? (hasFingerprint fingerprint) = none ∧ k + 1 < pageCount 100 rows

/-- What the search comes to, from the page after the first `k` on: the numbers
of the pages that it was given, and where it stands after them. -/
inductive Searching (cl : Client) (fingerprint : String)
    (listing : Nat → List (MachineResource cl.json)) :
    Nat → Nat → List Int64 → cl.Call (Option (MachineResource cl.json)) → Prop
  | outOfPages (k : Nat) : Searching cl fingerprint listing k 0 [] .stop
  | waiting {k pages : Nat} {q : cl.Call (Option (MachineResource cl.json))}
      (hvalue : q.value? = none) (hstop : q ≠ .stop) :
      Searching cl fingerprint listing k (pages + 1) [] q
  | gaveUp {k pages : Nat} (err : cl.Error) :
      Searching cl fingerprint listing k (pages + 1) [] (.ret (.error err))
  | found {k pages : Nat} {number : Int64} {machine : MachineResource cl.json}
      (hnumber : number.toInt = k + 1)
      (h : (page 100 (listing k) k).find? (hasFingerprint fingerprint) = some machine) :
      Searching cl fingerprint listing k (pages + 1) [number] (.ret (.ok (some machine)))
  | absent {k pages : Nat} {number : Int64} (hnumber : number.toInt = k + 1)
      (h : (page 100 (listing k) k).find? (hasFingerprint fingerprint) = none)
      (hlast : pageCount 100 (listing k) ≤ k + 1) :
      Searching cl fingerprint listing k (pages + 1) [number] (.ret (.ok none))
  | next {k pages : Nat} {number : Int64} {numbers : List Int64}
      {q : cl.Call (Option (MachineResource cl.json))} (hnumber : number.toInt = k + 1)
      (h : Passed fingerprint (listing k) k)
      (rest : Searching cl fingerprint listing (k + 1) pages numbers q) :
      Searching cl fingerprint listing k (pages + 1) (number :: numbers) q

theorem Served.of_cons {front back : List cl.Exchange} {k : Nat}
    {first : Request × Except cl.reqwest.Error Response} (hfront : answered front = [first])
    (h : Served licenseId fingerprint (fun i => listing (k + i)) (front ++ back)) :
    Served licenseId fingerprint (fun i => listing (k + 1 + i)) back := by
  intro i request reply hget
  have hnext := h (i + 1) request reply (by
    rw [answered_append, hfront, List.singleton_append, List.getElem?_cons_succ, hget])
  have hindex : k + (i + 1) = k + 1 + i := by omega
  simpa only [hindex] using hnext

def afterPage (licenseId : cl.json.Uuid) (fingerprint : String) (pages : Nat)
    (page : OffsetPage (MachineResource cl.json)) :
    cl.Call (Option (MachineResource cl.json)) :=
  match page.items.find? (hasFingerprint fingerprint) with
  | some found => .ret (.ok (some found))
  | none =>
      match page.nextPageNumber with
      | some next => cl.findFrom licenseId fingerprint pages next
      | none => .ret (.ok none)

theorem findFrom_succ (pages : Nat) (number : Int64) :
    cl.findFrom licenseId fingerprint (pages + 1) number =
      (cl.listMachines (cl.searchPage licenseId fingerprint number)).andThen
        (afterPage licenseId fingerprint pages) := rfl

/-- What the search does with a page of the listing: it returns, or goes on to the
page after it. -/
theorem steps_afterPage {rows : List (MachineResource cl.json)} {k pages : Nat}
    {page : OffsetPage (MachineResource cl.json)} (hpage : IsPage rows k page)
    {events : List cl.Exchange} {q : cl.Call (Option (MachineResource cl.json))}
    (hsteps : Steps (afterPage licenseId fingerprint pages page) events q) :
    (∃ machine, (Library.Paging.page 100 rows k).find? (hasFingerprint fingerprint) =
        some machine ∧ events = [] ∧ q = .ret (.ok (some machine))) ∨
      ((Library.Paging.page 100 rows k).find? (hasFingerprint fingerprint) = none ∧
        pageCount 100 rows ≤ k + 1 ∧ events = [] ∧ q = .ret (.ok none)) ∨
      ∃ next : Int64, Passed fingerprint rows k ∧ next.toInt = (k + 1 : Nat) + 1 ∧
        Steps (cl.findFrom licenseId fingerprint pages next) events q := by
  simp only [afterPage, hpage.items] at hsteps
  have hnext := nextPageNumber_of_isPage hpage
  split at hsteps
  · rename_i machine hmatch
    obtain ⟨rfl, rfl⟩ := steps_ret_iff.mp hsteps
    exact Or.inl ⟨machine, hmatch, rfl, rfl⟩
  · rename_i hnone
    split at hsteps
    · rename_i next hsome
      rw [hsome] at hnext
      exact Or.inr (Or.inr ⟨next, ⟨hnone, hnext.2⟩, hnext.1, hsteps⟩)
    · rename_i hlast
      rw [hlast] at hnext
      obtain ⟨rfl, rfl⟩ := steps_ret_iff.mp hsteps
      exact Or.inr (Or.inl ⟨hnone, hnext, rfl, rfl⟩)

theorem Served.first {front back : List cl.Exchange} {k : Nat}
    (h : Served licenseId fingerprint (fun i => listing (k + i)) (front ++ back))
    (request : Request) (reply : Except cl.reqwest.Error Response)
    (hget : (answered front)[0]? = some (request, reply)) :
    AnswersFrom licenseId fingerprint (listing k) request reply := by
  apply h 0 request reply
  rw [answered_append, List.getElem?_append_left, hget]
  exact (List.getElem?_eq_some_iff.mp hget).1

theorem steps_findFrom (listing : Nat → List (MachineResource cl.json)) (pages : Nat) {k : Nat}
    {number : Int64} (hnumber : number.toInt = k + 1) {events : List cl.Exchange}
    {q : cl.Call (Option (MachineResource cl.json))}
    (hsteps : Steps (cl.findFrom licenseId fingerprint pages number) events q)
    (hserved : Served licenseId fingerprint (fun i => listing (k + i)) events) :
    (∀ err, q = .ret (.error err) → GaveUp events err) ∧ ∃ numbers,
      (answered events).map Prod.fst = numbers.map (searchRequest cl licenseId fingerprint) ∧
        Searching cl fingerprint listing k pages numbers q := by
  induction pages generalizing k number events with
  | zero =>
      obtain ⟨rfl, rfl⟩ := steps_stop_iff.mp hsteps
      exact ⟨fun _ h => (by cases h), [], rfl, .outOfPages k⟩
  | succ pages ih =>
      rw [findFrom_succ] at hsteps
      rcases hsteps.of_andThen with ⟨p', hp', hvalue, rfl⟩ | ⟨err, hfront, rfl⟩ |
        ⟨_, front, back, rfl, hfront, hback⟩
      · have hne := (returns_listMachines _).ne_stop hp'
        refine ⟨fun err herr => ?_, [], ?_, .waiting (value?_bind hvalue) (bind_ne_stop hvalue hne)⟩
        · cases (value?_bind hvalue).symm.trans (congrArg value? herr)
        · rcases steps_listMachines hnumber hp' (hserved 0) with ⟨hnone, -⟩ | ⟨_, _, -, rfl, -⟩
          · rw [hnone]
            rfl
          · cases hvalue
      · rcases steps_listMachines hnumber hfront (hserved 0) with ⟨hnone, herror⟩ |
          ⟨_, _, -, ⟨⟩, -⟩
        obtain ⟨_, ⟨⟩, hgaveUp⟩ := herror _ rfl
        refine ⟨?_, [], ?_, .gaveUp err⟩
        · rintro _ ⟨⟩
          exact hgaveUp
        · rw [hnone]
          rfl
      · rcases steps_listMachines hnumber hfront hserved.first with ⟨-, herror⟩ |
          ⟨page, reply, hone, ⟨⟩, hpage⟩
        · obtain ⟨_, ⟨⟩, -⟩ := herror _ rfl
        · rcases steps_afterPage hpage hback with ⟨machine, hfound, rfl, rfl⟩ |
            ⟨hnone, hlast, rfl, rfl⟩ | ⟨next, hpassed, hnext, hrest⟩
          · refine ⟨fun _ h => (by cases h), [number], ?_, .found hnumber hfound⟩
            rw [List.append_nil, hone]
            rfl
          · refine ⟨fun _ h => (by cases h), [number], ?_, .absent hnumber hnone hlast⟩
            rw [List.append_nil, hone]
            rfl
          · obtain ⟨hgaveUp, numbers, hnumbers, hsearching⟩ :=
              ih hnext hrest (hserved.of_cons hone)
            refine ⟨fun err herr => (hgaveUp err herr).append, number :: numbers, ?_,
              .next hnumber hpassed hsearching⟩
            rw [answered_append, hone, List.map_append, hnumbers]
            rfl

variable {k pages : Nat} {numbers : List Int64}
  {q : cl.Call (Option (MachineResource cl.json))}

/-- The pages come in order, none skipped and none twice. -/
theorem Searching.numbers_eq (h : Searching cl fingerprint listing k pages numbers q) :
    numbers.map Int64.toInt = (List.range' (k + 1) numbers.length).map Int.ofNat := by
  induction h with
  | outOfPages => rfl
  | waiting => rfl
  | gaveUp => rfl
  | found hnumber => simp [hnumber]
  | absent hnumber => simp [hnumber]
  | next hnumber _ _ ih =>
      rw [List.map_cons, ih, List.length_cons, List.range'_succ, List.map_cons, hnumber]
      rfl

/-- Only the last page can have a match, or be the last there is. -/
theorem Searching.passed (h : Searching cl fingerprint listing k pages numbers q) {i : Nat}
    (hi : i + 1 < numbers.length) : Passed fingerprint (listing (k + i)) (k + i) := by
  induction h generalizing i with
  | outOfPages => cases hi
  | waiting => cases hi
  | gaveUp => cases hi
  | found => simp at hi
  | absent => simp at hi
  | @next k pages number numbers q _ hpassed _ ih =>
      cases i with
      | zero => exact hpassed
      | succ i =>
          have hrest := ih (i := i) (by simpa using hi)
          rwa [Nat.add_right_comm, Nat.add_assoc] at hrest

/-- The result against one listing, when the pages before are known to have no match. -/
theorem Searching.eq_find? {rows : List (MachineResource cl.json)}
    (h : Searching cl fingerprint (fun _ => rows) k pages numbers q)
    (hbefore : ∀ i < k, (page 100 rows i).find? (hasFingerprint fingerprint) = none)
    {found : Option (MachineResource cl.json)} (hq : q = .ret (.ok found)) :
    found = rows.find? (hasFingerprint fingerprint) := by
  induction h with
  | outOfPages => cases hq
  | waiting hvalue => cases hvalue.symm.trans (congrArg value? hq)
  | gaveUp => cases hq
  | found _ hfound =>
      cases hq
      exact (find?_eq_some_of_page hbefore hfound).symm
  | @absent k _ _ _ hnone hlast =>
      cases hq
      have hend : rows.length ≤ 100 * (k + 1) :=
        Nat.le_of_not_lt fun hlt => Nat.not_lt_of_le hlast ((lt_pageCount_iff (by decide)).mpr hlt)
      refine (find?_eq_none_of_pages (k := k + 1) (fun i hi => ?_) hend).symm
      rcases Nat.lt_succ_iff_lt_or_eq.mp hi with hi | rfl
      · exact hbefore i hi
      · exact hnone
  | next _ hpassed _ ih =>
      refine ih (fun i hi => ?_) hq
      rcases Nat.lt_succ_iff_lt_or_eq.mp hi with hi | rfl
      · exact hbefore i hi
      · exact hpassed.1

theorem Searching.length_le {rows : List (MachineResource cl.json)}
    (h : Searching cl fingerprint (fun _ => rows) k pages numbers q)
    (hmore : k < max 1 (pageCount 100 rows)) :
    k + numbers.length ≤ max 1 (pageCount 100 rows) ∧
      (q = .stop → k + pages < max 1 (pageCount 100 rows)) := by
  induction h with
  | outOfPages => exact ⟨Nat.le_of_lt hmore, fun _ => hmore⟩
  | waiting _ hstop => exact ⟨Nat.le_of_lt hmore, fun h => absurd h hstop⟩
  | gaveUp => exact ⟨Nat.le_of_lt hmore, nofun⟩
  | found => exact ⟨hmore, nofun⟩
  | absent => exact ⟨hmore, nofun⟩
  | next _ hpassed _ ih =>
      obtain ⟨hlength, hstop⟩ := ih (lt_of_lt_of_le hpassed.2 (le_max_right _ _))
      rw [List.length_cons]
      refine ⟨by omega, fun hq => ?_⟩
      have hlt := hstop hq
      omega

end Search

section Stable

/-- The two filters that every request of a search carries. -/
def Scoped (licenseId : cl.json.Uuid) (fingerprint : String) (request : Request) : Prop :=
  request.path = "/machines" ∧
    request.query.lookup "filter[license]" = some (cl.json.printUuid licenseId) ∧
      request.query.lookup "filter[q]" = some fingerprint

theorem scoped_searchRequest (licenseId : cl.json.Uuid) (fingerprint : String)
    (pageNumber : Int64) :
    Scoped licenseId fingerprint (searchRequest cl licenseId fingerprint pageNumber) :=
  ⟨rfl, rfl, rfl⟩

/-- On a listing that does not change the search is exact, and reads the pages in
order up to the first match. -/
theorem search_exact (cl : Client) (licenseId : cl.json.Uuid) (fingerprint : String)
    (rows : List (MachineResource cl.json)) (pages : Nat)
    (server : List cl.Exchange → (op : Op) → Reply cl.reqwest op)
    (hpages : max 1 (pageCount 100 rows) ≤ pages)
    (hserved : Served licenseId fingerprint (fun _ => rows)
      (exec server [] (cl.findMachineByFingerprint pages licenseId fingerprint)).1) :
    let run := exec server [] (cl.findMachineByFingerprint pages licenseId fingerprint)
    (run.2 = some (.ok (rows.find? (hasFingerprint fingerprint))) ∨
      ∃ err, run.2 = some (.error err) ∧ GaveUp run.1 err) ∧
    (∃ numbers : List Int64,
      (answered run.1).map Prod.fst = numbers.map (searchRequest cl licenseId fingerprint) ∧
        numbers.map Int64.toInt = (List.range' 1 numbers.length).map Int.ofNat ∧
          numbers.length ≤ max 1 (pageCount 100 rows) ∧
            ∀ i, i + 1 < numbers.length →
              (page 100 rows i).find? (hasFingerprint fingerprint) = none) ∧
    ∀ request ∈ requests run.1, Scoped licenseId fingerprint request := by
  intro run
  obtain ⟨events, q, hsteps, hend, hexec⟩ :=
    exec_steps server [] (cl.findMachineByFingerprint pages licenseId fingerprint)
  have hrun : run = (events, q.value?) := hexec
  rw [hexec, List.nil_append] at hserved
  obtain ⟨hgaveUp, numbers, hnumbers, hsearching⟩ :=
    steps_findFrom (k := 0) (fun _ => rows) pages rfl hsteps hserved
  obtain ⟨hlength, hstop⟩ := hsearching.length_le (lt_of_lt_of_le Nat.one_pos (le_max_left _ _))
  rw [Nat.zero_add] at hlength hstop
  rw [hrun]
  refine ⟨?_, ⟨numbers, hnumbers, hsearching.numbers_eq, hlength, ?_⟩, ?_⟩
  · cases hvalue : q.value? with
    | none => exact absurd (hstop (hend hvalue)) (Nat.not_lt_of_le hpages)
    | some outcome =>
        rw [value?_eq_some_iff] at hvalue
        cases outcome with
        | error err => exact Or.inr ⟨err, rfl, hgaveUp err hvalue⟩
        | ok found => exact Or.inl (by rw [hsearching.eq_find? nofun hvalue])
  · intro i hi
    have hpassed := hsearching.passed hi
    rw [Nat.zero_add] at hpassed
    exact hpassed.1
  · exact asks_findFrom (fun _ => scoped_searchRequest licenseId fingerprint _) pages 1 events q
      hsteps

theorem steps_listMachines_page {opts : ListMachinesOptions cl.json} {response : Response}
    {page : OffsetPage (MachineResource cl.json)}
    (hread : cl.readMachinePage response = .ok page) :
    Steps (cl.listMachines opts) [⟨.send (cl.listMachinesRequest opts), .ok response⟩]
      (.ret (.ok page)) := by
  have hstatus : response.status ≠ tooManyRequests := by
    intro hstatus
    cases (readMachinePage_throttled hstatus).symm.trans hread
  rw [← hread]
  exact (steps_sendWithRetry hstatus).bind (.refl _)

theorem steps_findFrom_cons {pages : Nat} {number : Int64} {response : Response}
    {page : OffsetPage (MachineResource cl.json)} {licenseId : cl.json.Uuid}
    {fingerprint : String} {rest : List cl.Exchange}
    {q : cl.Call (Option (MachineResource cl.json))}
    (hread : cl.readMachinePage response = .ok page)
    (hrest : Steps (afterPage licenseId fingerprint pages page) rest q) :
    Steps (cl.findFrom licenseId fingerprint (pages + 1) number)
      (⟨.send (searchRequest cl licenseId fingerprint number), .ok response⟩ :: rest) q :=
  (steps_listMachines_page hread).bind hrest

def otherMachine (i : Nat) : MachineResource blankClient.json :=
  blankMachine (String.ofList (List.replicate (i + 1) 'a'))
    (String.ofList (List.replicate (i + 1) 'a'))

def soughtMachine : MachineResource blankClient.json := blankMachine "machine" "fingerprint"

def otherMachines : List (MachineResource blankClient.json) :=
  (List.range' 1 99).map otherMachine

theorem hasFingerprint_otherMachine (i : Nat) :
    hasFingerprint "fingerprint" (otherMachine i) = false := by
  refine beq_eq_false_iff_ne.mpr fun h => ?_
  have hchars := congrArg String.toList h
  simp only [otherMachine, blankMachine, String.toList_ofList, List.replicate_succ] at hchars
  have hhead := (List.cons.inj hchars).1
  exact absurd hhead (by decide)

theorem hasFingerprint_otherMachines :
    ∀ other ∈ otherMachines, hasFingerprint "fingerprint" other = false := by
  intro other hmem
  obtain ⟨i, -, rfl⟩ := List.mem_map.mp hmem
  exact hasFingerprint_otherMachine i

theorem length_otherMachines : otherMachines.length = 99 := by
  rw [otherMachines, List.length_map, List.length_range']

/-- A full page of other machines, with one more page after it. -/
def othersPage (total : Int64) : OffsetPage (MachineResource blankClient.json) :=
  ⟨otherMachine 0 :: otherMachines, ⟨1, 100, total, 2⟩⟩

def lastPage : OffsetPage (MachineResource blankClient.json) :=
  ⟨[soughtMachine], ⟨2, 100, 101, 2⟩⟩

theorem length_othersPage (total : Int64) : (othersPage total).items.length = 100 := by
  rw [othersPage, List.length_cons, length_otherMachines]

theorem find?_othersPage (total : Int64) :
    (othersPage total).items.find? (hasFingerprint "fingerprint") = none := by
  refine List.find?_eq_none.mpr ?_
  rintro other (_ | ⟨_, hmem⟩)
  · exact Bool.eq_false_iff.mp (hasFingerprint_otherMachine 0)
  · exact Bool.eq_false_iff.mp (hasFingerprint_otherMachines other hmem)

theorem isPage_othersPage {total : Int64} {back : List (MachineResource blankClient.json)}
    (htotal : total.toInt = (100 + back.length : Nat)) (hback : 0 < back.length)
    (hfits : back.length ≤ 100) :
    IsPage ((othersPage total).items ++ back) 0 (othersPage total) where
  items := by
    rw [page, Nat.mul_zero, List.drop_zero]
    exact (List.take_left' (length_othersPage total)).symm
  number := rfl
  size := rfl
  total := by
    rw [List.length_append, length_othersPage]
    exact htotal
  totalPages := by
    have hcount : pageCount 100 ((othersPage total).items ++ back) = 2 := by
      rw [pageCount, List.length_append, length_othersPage]
      omega
    rw [hcount]
    rfl

theorem isPage_lastPage {front : List (MachineResource blankClient.json)}
    (hfront : front.length = 100) : IsPage (front ++ [soughtMachine]) 1 lastPage where
  items := by
    have hlast : page 100 (front ++ [soughtMachine]) 1 = [soughtMachine] :=
      page_append hfront [soughtMachine]
    exact hlast.symm
  number := rfl
  size := rfl
  total := by
    rw [List.length_append, hfront]
    rfl
  totalPages := by
    rw [pageCount, List.length_append, hfront]
    rfl

def pageResponse (page : OffsetPage (MachineResource blankClient.json)) : Response :=
  ⟨200, [], some (pageDocument page)⟩

theorem read_othersPage (total : Int64) :
    blankClient.readMachinePage (pageResponse (othersPage total)) = .ok (othersPage total) := by
  refine readMachinePage_page roundTrips_blankClient ?_
  rintro machine (_ | ⟨_, hmem⟩)
  · exact readable_blankMachine _ _
  · obtain ⟨i, -, rfl⟩ := List.mem_map.mp hmem
    exact readable_blankMachine _ _

theorem read_lastPage : blankClient.readMachinePage (pageResponse lastPage) = .ok lastPage := by
  refine readMachinePage_page roundTrips_blankClient ?_
  rintro machine (_ | ⟨_, ⟨⟩⟩)
  exact readable_blankMachine _ _

def twoPageServer (total : Int64) : (op : Op) → Reply blankClient.reqwest op
  | .send request =>
      .ok (pageResponse
        (if request.query.lookup "page[number]" = some "1" then othersPage total else lastPage))
  | .sleep _ => ()

def twoPages (total : Int64) : List blankClient.Exchange :=
  [⟨.send (searchRequest blankClient blankLicenseId "fingerprint" 1),
      .ok (pageResponse (othersPage total))⟩,
    ⟨.send (searchRequest blankClient blankLicenseId "fingerprint" 2),
      .ok (pageResponse lastPage)⟩]

theorem exec_twoPageServer (total : Int64) :
    exec (fun _ => twoPageServer total) []
        (blankClient.findMachineByFingerprint 2 blankLicenseId "fingerprint") =
      (twoPages total, some (.ok (some soughtMachine))) := by
  have hsteps : Steps (blankClient.findMachineByFingerprint 2 blankLicenseId "fingerprint")
      (twoPages total) (.ret (.ok (some soughtMachine))) := by
    refine steps_findFrom_cons (read_othersPage total) ?_
    simp only [afterPage, find?_othersPage]
    exact steps_findFrom_cons read_lastPage (.refl _)
  refine exec_of_steps hsteps rfl ?_ []
  rintro event (_ | ⟨_, _ | ⟨_, ⟨⟩⟩⟩)
  · rfl
  · rfl

theorem served_twoPages {total : Int64}
    {listing : Nat → List (MachineResource blankClient.json)}
    (hfirst : IsPage (listing 0) 0 (othersPage total)) (hlast : IsPage (listing 1) 1 lastPage) :
    Served blankLicenseId "fingerprint" listing (twoPages total) := by
  rintro (_ | _ | i) request reply hget
  · obtain ⟨rfl, rfl⟩ := Prod.mk.inj (Option.some.inj hget)
    exact ⟨0, 1, _, _, rfl, rfl, rfl, read_othersPage total, hfirst⟩
  · obtain ⟨rfl, rfl⟩ := Prod.mk.inj (Option.some.inj hget)
    exact ⟨1, 2, _, _, rfl, rfl, rfl, read_lastPage, hlast⟩
  · cases hget

def twoPageRows : List (MachineResource blankClient.json) :=
  (othersPage 101).items ++ [soughtMachine]

theorem search_exact_recorded :
    let run := exec (fun _ => twoPageServer 101) []
      (blankClient.findMachineByFingerprint 2 blankLicenseId "fingerprint")
    (run.2 = some (.ok (twoPageRows.find? (hasFingerprint "fingerprint"))) ∨
      ∃ err, run.2 = some (.error err) ∧ GaveUp run.1 err) ∧
    (∃ numbers : List Int64,
      (answered run.1).map Prod.fst =
          numbers.map (searchRequest blankClient blankLicenseId "fingerprint") ∧
        numbers.map Int64.toInt = (List.range' 1 numbers.length).map Int.ofNat ∧
          numbers.length ≤ max 1 (pageCount 100 twoPageRows) ∧
            ∀ i, i + 1 < numbers.length →
              (page 100 twoPageRows i).find? (hasFingerprint "fingerprint") = none) ∧
    ∀ request ∈ requests run.1, Scoped blankLicenseId "fingerprint" request := by
  refine search_exact blankClient blankLicenseId "fingerprint" twoPageRows 2 _ ?_ ?_
  · rw [twoPageRows, pageCount, List.length_append, length_othersPage]
    decide
  · rw [exec_twoPageServer]
    exact served_twoPages (isPage_othersPage rfl (by decide) (by decide))
      (isPage_lastPage (length_othersPage 101))

end Stable

end Tamga.MachineSearch
