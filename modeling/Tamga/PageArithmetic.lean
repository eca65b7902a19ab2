import Tamga.SearchRace

namespace Tamga.PageArithmetic

open Library.Interaction
open Library.Interaction.Prog
open Library.CheckedSums
open Tamga.Models
open Tamga.ApiModels
open Tamga.Transport
open Tamga.Client
open Tamga.RetryBounds
open Tamga.ServerResponses
open Tamga.MachineSearch
open Tamga.SearchRace

abbrev SummingCall (cl : Client) (α : Type) :=
  Summing Op (Reply cl.reqwest) (Except cl.Error α)

abbrev SummingEvent (cl : Client) := SumEvent Op (Reply cl.reqwest)

variable (cl : Client)

def thenSome {α : Type} (condition : Bool) (value : α) : Option α :=
  if condition then some value else none

/-- `next_page_number`.  The argument of `then_some` is evaluated in any case. -/
def nextPageNumber {α : Type} (page : OffsetPage α) :
    Summing Op (Reply cl.reqwest) (Option Int64) :=
  (adding page.page.number 1).map (thenSome (page.page.number < page.page.totalPages))

/-- What the loop does with a page; `goOn` is its next turn.  The sum here is the only
one on `i64` that it makes. -/
def afterRead (fingerprint : String)
    (goOn : Int64 → SummingCall cl (Option (MachineResource cl.json)))
    (page : OffsetPage (MachineResource cl.json)) :
    SummingCall cl (Option (MachineResource cl.json)) :=
  match page.items.find? (hasFingerprint fingerprint) with
  | some found => .ret (.ok (some found))
  | none =>
      (nextPageNumber cl page).bind fun
        | some next => goOn next
        | none => .ret (.ok none)

/-- The loop of `find_machine_by_fingerprint`, for at most so many pages. -/
def findFrom (licenseId : cl.json.Uuid) (fingerprint : String) :
    Nat → Int64 → SummingCall cl (Option (MachineResource cl.json))
  | 0, _ => .stop
  | pages + 1, pageNumber =>
      (calling (cl.listMachines (cl.searchPage licenseId fingerprint pageNumber))).andThen
        (afterRead cl fingerprint (findFrom licenseId fingerprint pages))

def findMachineByFingerprint (pages : Nat) (licenseId : cl.json.Uuid) (fingerprint : String) :
    SummingCall cl (Option (MachineResource cl.json)) :=
  findFrom cl licenseId fingerprint pages 1

variable {cl : Client} {licenseId : cl.json.Uuid} {fingerprint : String}

section Release

theorem thenSome_eq_nextPageNumber {α : Type} (page : OffsetPage α) :
    thenSome (page.page.number < page.page.totalPages) (page.page.number + 1) =
      page.nextPageNumber := by
  simp only [thenSome, OffsetPage.nextPageNumber, decide_eq_true_eq]

theorem wrapping_afterRead (pages : Nat)
    {goOn : Int64 → SummingCall cl (Option (MachineResource cl.json))}
    (hrest : ∀ next, wrapping (goOn next) = cl.findFrom licenseId fingerprint pages next)
    (page : OffsetPage (MachineResource cl.json)) :
    wrapping (afterRead cl fingerprint goOn page) =
      afterPage licenseId fingerprint pages page := by
  rw [afterRead, afterPage]
  cases page.items.find? (hasFingerprint fingerprint) with
  | some found => rfl
  | none =>
      simp only [nextPageNumber, adding, map, Prog.bind, wrapping, thenSome_eq_nextPageNumber]
      cases page.nextPageNumber with
      | some next => exact hrest next
      | none => rfl

theorem wrapping_findFrom (pages : Nat) (number : Int64) :
    wrapping (findFrom cl licenseId fingerprint pages number) =
      cl.findFrom licenseId fingerprint pages number := by
  induction pages generalizing number with
  | zero => rfl
  | succ pages ih =>
      rw [findFrom, wrapping_andThen, findFrom_succ]
      congr 1
      funext page
      exact wrapping_afterRead pages ih page

/-- Without overflow checks the loop is the search as it stands elsewhere, where the
sum is made only if it is used. -/
theorem search_release_iff (pages : Nat) {asked : List cl.Exchange}
    {r : cl.Call (Option (MachineResource cl.json))} :
    Steps (cl.findMachineByFingerprint pages licenseId fingerprint) asked r ↔
      ∃ events q,
        Runs .release (findMachineByFingerprint cl pages licenseId fingerprint) events q ∧
          calls events = asked ∧ wrapping q = r := by
  rw [← steps_wrapping_iff, findMachineByFingerprint, wrapping_findFrom]
  rfl

end Release

section Sums

def pageRead : cl.Exchange → Option (OffsetPage (MachineResource cl.json))
  | ⟨.send _, .ok response⟩ => (cl.readMachinePage response).toOption
  | _ => none

def hasNoMatch (fingerprint : String) (page : OffsetPage (MachineResource cl.json)) : Bool :=
  (page.items.find? (hasFingerprint fingerprint)).isNone

def passed (fingerprint : String) (events : List cl.Exchange) :
    List (OffsetPage (MachineResource cl.json)) :=
  (events.filterMap pageRead).filter (hasNoMatch fingerprint)

theorem pageRead_of_throttles {request : Request} {attempt : UInt32} {response : Response}
    (h : Throttles cl request attempt response) :
    pageRead (⟨.send request, .ok response⟩ : cl.Exchange) = none := by
  rw [pageRead, readMachinePage_throttled h.1]
  rfl

theorem pageRead_of_sending {request : Request} {attempt : UInt32} {events : List cl.Exchange}
    {result : Option (Except cl.Error Response)}
    (h : Sending cl request attempt events result) :
    events.filterMap pageRead =
      ((result.map fun outcome => outcome.bind cl.readMachinePage).bind
        Except.toOption).toList := by
  induction h with
  | idle => rfl
  | @answered _ reply _ =>
      cases reply with
      | error err => rfl
      | ok response =>
          cases hread : cl.readMachinePage response with
          | error err => simp [pageRead, Except.mapError, Except.bind, Except.toOption, hread]
          | ok page => simp [pageRead, Except.mapError, Except.bind, Except.toOption, hread]
  | waiting h => exact List.filterMap_cons_none (pageRead_of_throttles h)
  | again h _ ih =>
      rw [List.filterMap_cons_none (pageRead_of_throttles h), List.filterMap_cons_none rfl, ih]

theorem pageRead_of_listMachines {opts : ListMachinesOptions cl.json} {events : List cl.Exchange}
    {q : cl.Call (OffsetPage (MachineResource cl.json))}
    (h : Steps (cl.listMachines opts) events q) :
    events.filterMap pageRead = (q.value?.bind Except.toOption).toList := by
  obtain ⟨sent, hsending, hvalue⟩ := meets_andThen_ret (meets_sendWithRetry _) events q h
  rw [hvalue, pageRead_of_sending hsending]

theorem passed_append (front back : List cl.Exchange) :
    passed fingerprint (front ++ back) = passed fingerprint front ++ passed fingerprint back := by
  rw [passed, List.filterMap_append, List.filter_append]
  rfl

def sumAfter (page : OffsetPage (MachineResource cl.json)) : Int64 × Int64 :=
  (page.page.number, 1)

theorem sums_afterRead {goOn : Int64 → SummingCall cl (Option (MachineResource cl.json))}
    {page : OffsetPage (MachineResource cl.json)}
    (hrest : ∀ {next events q}, Steps (goOn next) events q →
      sums events q = (passed fingerprint (calls events)).map sumAfter)
    {events : List (SummingEvent cl)}
    {q : SummingCall cl (Option (MachineResource cl.json))}
    (hsteps : Steps (afterRead cl fingerprint goOn page) events q) :
    sums events q =
      ([page].filter (hasNoMatch fingerprint) ++ passed fingerprint (calls events)).map
        sumAfter := by
  rw [afterRead] at hsteps
  cases hfound : page.items.find? (hasFingerprint fingerprint) with
  | some found =>
      have hmatch : hasNoMatch fingerprint page = false := by rw [hasNoMatch, hfound]; rfl
      rw [hfound] at hsteps
      obtain ⟨rfl, rfl⟩ := steps_ret_iff.mp hsteps
      rw [List.filter_cons_of_neg (Bool.eq_false_iff.mp hmatch)]
      rfl
  | none =>
      have hmatch : hasNoMatch fingerprint page = true := by rw [hasNoMatch, hfound]; rfl
      rw [hfound] at hsteps
      rw [List.filter_cons_of_pos hmatch, List.filter_nil, List.singleton_append, List.map_cons]
      -- the sum is there before it is known whether there is a next page
      rcases steps_ask_iff.mp hsteps with ⟨rfl, rfl⟩ | ⟨sum, rest, rfl, hnext⟩
      · rfl
      · rw [sums_add, calls_add]
        refine congrArg (List.cons _) ?_
        simp only [Prog.bind] at hnext
        cases hthen : thenSome (page.page.number < page.page.totalPages) sum with
        | some next =>
            rw [hthen] at hnext
            exact hrest hnext
        | none =>
            rw [hthen] at hnext
            obtain ⟨rfl, rfl⟩ := steps_ret_iff.mp hnext
            rfl

/-- The loop makes one sum for each page without a match, and no other. -/
theorem sums_findFrom (pages : Nat) {number : Int64}
    {events : List (SummingEvent cl)}
    {q : SummingCall cl (Option (MachineResource cl.json))}
    (hsteps : Steps (findFrom cl licenseId fingerprint pages number) events q) :
    sums events q = (passed fingerprint (calls events)).map sumAfter := by
  induction pages generalizing number events q with
  | zero =>
      obtain ⟨rfl, rfl⟩ := steps_stop_iff.mp hsteps
      rfl
  | succ pages ih =>
      rw [findFrom] at hsteps
      rcases hsteps.of_andThen with ⟨p', hp', hvalue, rfl⟩ | ⟨err, hfront, rfl⟩ |
        ⟨page, front, back, rfl, hfront, hback⟩
      · obtain ⟨p, rfl, hcalls, hsummed⟩ := steps_calling hp'
        rw [value?_calling] at hvalue
        rw [sums, hsummed, passed, pageRead_of_listMachines hcalls, hvalue]
        exact pending_calling_bind hvalue
      · obtain ⟨hcalls, hsummed⟩ := steps_calling_ret hfront
        rw [sums, hsummed, passed, pageRead_of_listMachines hcalls]
        rfl
      · obtain ⟨hcalls, hsummed⟩ := steps_calling_ret hfront
        rw [sums_append, hsummed, List.nil_append, calls_append, passed_append, passed,
          pageRead_of_listMachines hcalls]
        exact sums_afterRead ih hback

end Sums

section NextPage

variable {α : Type} {profile : Profile} {page : OffsetPage α}

/-- What `next_page_number` is meant to do: add without an overflow, return, and
give the number after the page's own just where there are more pages. -/
structure NumbersNext (cl : Client) (profile : Profile) (page : OffsetPage α) : Prop where
  safe : ∀ events q, Runs profile (nextPageNumber cl page) events q → NoOverflow events q
  returns : ∃ events value, Runs profile (nextPageNumber cl page) events (.ret value)
  exact : ∀ events value, Runs profile (nextPageNumber cl page) events (.ret value) →
    ∀ next : Int64, value = some next ↔
      page.page.number < page.page.totalPages ∧ next.toInt = page.page.number.toInt + 1

theorem sums_nextPageNumber {events : List (SummingEvent cl)}
    {q : Summing Op (Reply cl.reqwest) (Option Int64)}
    (h : Steps (nextPageNumber cl page) events q) :
    sums events q = [(page.page.number, 1)] := by
  rcases steps_ask_iff.mp h with ⟨rfl, rfl⟩ | ⟨sum, rest, rfl, hrest⟩
  · rfl
  · obtain ⟨rfl, rfl⟩ := steps_ret_iff.mp hrest
    rfl

/-- The value, once there is one, is that of the wrapping sum. -/
theorem runs_nextPageNumber_ret {events : List (SummingEvent cl)}
    {value : Option Int64} (h : Runs profile (nextPageNumber cl page) events (.ret value)) :
    value = page.nextPageNumber := by
  rcases steps_ask_iff.mp h.steps with ⟨rfl, ⟨⟩⟩ | ⟨sum, rest, rfl, hrest⟩
  obtain ⟨rfl, hvalue⟩ := steps_ret_iff.mp hrest
  obtain rfl : sum = page.page.number + 1 := (h.computes _ List.mem_cons_self).1
  rw [← thenSome_eq_nextPageNumber]
  exact Prog.ret.inj hvalue

theorem nextPageNumber_eq_some_iff (h : ¬ Overflows page.page.number 1) {next : Int64} :
    page.nextPageNumber = some next ↔
      page.page.number < page.page.totalPages ∧ next.toInt = page.page.number.toInt + 1 := by
  have hsum := toInt_add_of_not_overflows h
  rw [Int64.toInt_one] at hsum
  rw [OffsetPage.nextPageNumber, Option.ite_none_right_eq_some, Option.some_inj, ← hsum,
    Int64.toInt_inj, eq_comm (a := next)]

theorem numbersNext_iff : NumbersNext cl profile page ↔ page.page.number ≠ Int64.maxValue := by
  rw [ne_eq, ← overflows_one_iff]
  constructor
  · intro h
    have hsafe := h.safe [] _ ⟨.refl _, nofun⟩
    exact hsafe (page.page.number, 1) List.mem_cons_self
  · intro h
    refine ⟨?_, ⟨_, _, .add (fun _ => h) ⟨.refl _, nofun⟩⟩, ?_⟩
    · intro events q hruns sum hmem
      rw [sums_nextPageNumber hruns.steps] at hmem
      obtain rfl := List.mem_singleton.mp hmem
      exact h
    · intro events value hruns next
      rw [runs_nextPageNumber_ret hruns]
      exact nextPageNumber_eq_some_iff h

end NextPage

section Search

variable {profile : Profile}

theorem runs_findFrom_cons {pages : Nat} {number : Int64} {response : Response}
    {page : OffsetPage (MachineResource cl.json)} {rest : List (SummingEvent cl)}
    {q : SummingCall cl (Option (MachineResource cl.json))}
    (hread : cl.readMachinePage response = .ok page)
    (hrest : Runs profile
      (afterRead cl fingerprint (findFrom cl licenseId fingerprint pages) page) rest q) :
    Runs profile (findFrom cl licenseId fingerprint (pages + 1) number)
      (⟨.call (.send (searchRequest cl licenseId fingerprint number)), .ok response⟩ :: rest) q :=
  (runs_calling (steps_listMachines_page hread)).bind hrest

theorem noOverflow_findFrom_iff (pages : Nat) {number : Int64}
    {events : List (SummingEvent cl)}
    {q : SummingCall cl (Option (MachineResource cl.json))}
    (hsteps : Steps (findFrom cl licenseId fingerprint pages number) events q) :
    NoOverflow events q ↔
      ∀ page ∈ passed fingerprint (calls events), page.page.number ≠ Int64.maxValue := by
  rw [NoOverflow, sums_findFrom pages hsteps, List.forall_mem_map]
  apply forall₂_congr
  intro page _
  exact not_congr overflows_one_iff

/-- The sum in `next_page_number` overflows for a page with the greatest number there
is and for no other, in either profile; the search overflows just when it reads such
a page, without a match on it, in whatever its requests are answered with. -/
theorem page_arithmetic_iff (cl : Client) (profile : Profile) :
    (∀ (α : Type) (page : OffsetPage α),
      NumbersNext cl profile page ↔ page.page.number ≠ Int64.maxValue) ∧
    ∀ (licenseId : cl.json.Uuid) (fingerprint : String) (pages : Nat) events q,
      Runs profile (findMachineByFingerprint cl pages licenseId fingerprint) events q →
        (NoOverflow events q ↔
          ∀ page ∈ passed fingerprint (calls events), page.page.number ≠ Int64.maxValue) :=
  ⟨fun _ _ => numbersNext_iff, fun _ _ pages _ _ hruns =>
    noOverflow_findFrom_iff pages hruns.steps⟩

def onePageSearch (page : OffsetPage (MachineResource blankClient.json)) :
    List (SummingEvent blankClient) :=
  [⟨.call (.send (searchRequest blankClient blankLicenseId "fingerprint" 1)),
    .ok (pageResponse page)⟩]

/-- A last page without a match: its sum is made, and not used. -/
theorem page_arithmetic_iff_recorded :
    (NumbersNext blankClient .dev secondPage ↔ secondPage.page.number ≠ Int64.maxValue) ∧
    ∃ events q,
      Runs .dev (findMachineByFingerprint blankClient 1 blankLicenseId "fingerprint") events q ∧
        (NoOverflow events q ↔
          ∀ page ∈ passed "fingerprint" (calls events), page.page.number ≠ Int64.maxValue) := by
  have hruns : Runs .dev (findMachineByFingerprint blankClient 1 blankLicenseId "fingerprint")
      (onePageSearch secondPage ++ [⟨.add 2 1, 2 + 1⟩]) (.ret (.ok none)) :=
    runs_findFrom_cons read_pageResponse_second (.add (fun _ => by decide) ⟨.refl _, nofun⟩)
  have harithmetic := page_arithmetic_iff blankClient .dev
  exact ⟨harithmetic.1 _ secondPage, _, _, hruns, harithmetic.2 _ _ _ _ _ hruns⟩

/-- No run of the search makes a sum that overflows. -/
def SearchSafe (cl : Client) (profile : Profile) : Prop :=
  ∀ (licenseId : cl.json.Uuid) (fingerprint : String) (pages : Nat) events q,
    Runs profile (findMachineByFingerprint cl pages licenseId fingerprint) events q →
      NoOverflow events q

/-- A page of a number that has no successor. -/
def edgePage : OffsetPage (MachineResource blankClient.json) :=
  ⟨[], ⟨Int64.maxValue, 100, 0, Int64.maxValue⟩⟩

theorem read_edgePage : blankClient.readMachinePage (pageResponse edgePage) = .ok edgePage :=
  readMachinePage_page roundTrips_blankClient fun _ hmem => absurd hmem List.not_mem_nil

theorem runs_edgePage (profile : Profile) :
    Runs profile (findMachineByFingerprint blankClient 1 blankLicenseId "fingerprint")
      (onePageSearch edgePage)
      (afterRead blankClient "fingerprint" (findFrom blankClient blankLicenseId "fingerprint" 0)
        edgePage) :=
  runs_findFrom_cons read_edgePage ⟨.refl _, nofun⟩

theorem not_searchSafe (profile : Profile) : ¬ SearchSafe blankClient profile := by
  intro h
  have hsafe := h _ _ _ _ _ (runs_edgePage profile)
  exact hsafe (Int64.maxValue, 1) List.mem_cons_self (by decide)

/-- At the edge of the range the checks panic and the sum wraps, both in the function
and in the search. -/
theorem edgePage_overflows :
    (¬ NumbersNext blankClient .dev edgePage ∧ ¬ NumbersNext blankClient .release edgePage) ∧
      ¬ SearchSafe blankClient .dev ∧ ¬ SearchSafe blankClient .release := by
  have hedge : ∀ profile, ¬ NumbersNext blankClient profile edgePage :=
    fun _ h => numbersNext_iff.mp h rfl
  exact ⟨⟨hedge .dev, hedge .release⟩, not_searchSafe .dev, not_searchSafe .release⟩

end Search

end Tamga.PageArithmetic
