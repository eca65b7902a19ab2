import Mathlib.Data.List.Pairwise
import Tamga.SearchRace

namespace Tamga.SearchProgress

open Library.Interaction
open Library.Interaction.Prog
open Library.Paging
open Tamga.Models
open Tamga.ApiModels
open Tamga.Transport
open Tamga.Client
open Tamga.RetryBounds
open Tamga.ServerResponses
open Tamga.MachineSearch
open Tamga.SearchRace

variable {cl : Client} {licenseId : cl.json.Uuid} {fingerprint : String}

section Visits

def AnswersPage : cl.Exchange → Prop
  | ⟨.send _, .ok response⟩ => ∃ page, cl.readMachinePage response = .ok page
  | _ => False

theorem AnswersPage.reads {request : Request} {reply : Except cl.reqwest.Error Response}
    (h : AnswersPage (⟨.send request, reply⟩ : cl.Exchange)) :
    ∃ response page, reply = .ok response ∧ cl.readMachinePage response = .ok page := by
  cases reply with
  | error err => exact h.elim
  | ok response =>
      obtain ⟨page, hread⟩ := h
      exact ⟨response, page, rfl, hread⟩

structure Visit (cl : Client) where
  number : Int64
  response : Response
  page : OffsetPage (MachineResource cl.json)
  read : cl.readMachinePage response = .ok page

def Visit.event (licenseId : cl.json.Uuid) (fingerprint : String) (visit : Visit cl) :
    cl.Exchange :=
  ⟨.send (searchRequest cl licenseId fingerprint visit.number), .ok visit.response⟩

def Visit.next? (fingerprint : String) (visit : Visit cl) : Option Int64 :=
  match visit.page.items.find? (hasFingerprint fingerprint) with
  | some _ => none
  | none => visit.page.nextPageNumber

/-- The numbers that the search asks for from `first` on, also the one that has no
answer yet. -/
def asked (fingerprint : String) (first : Int64) (visits : List (Visit cl)) : List Int64 :=
  first :: visits.filterMap (Visit.next? fingerprint)

/-- The page sends the search on, and reports a number that is not below the one
asked for. -/
def Visit.GetsOn (fingerprint : String) (visit : Visit cl) : Prop :=
  visit.next? fingerprint ≠ none → visit.number ≤ visit.page.page.number

end Visits

section Runs

variable {events : List cl.Exchange} {q : cl.Call (Option (MachineResource cl.json))}

/-- What the search comes to from its request for page `number` on, when pages
are all that it is answered with. -/
inductive Visiting (cl : Client) (fingerprint : String) :
    Nat → Int64 → List (Visit cl) → cl.Call (Option (MachineResource cl.json)) → Prop
  | outOfPages (number : Int64) : Visiting cl fingerprint 0 number [] .stop
  | waiting {pages : Nat} (number : Int64) {q : cl.Call (Option (MachineResource cl.json))}
      (hstop : q ≠ .stop) : Visiting cl fingerprint (pages + 1) number [] q
  | last {pages : Nat} (visit : Visit cl) (hlast : visit.next? fingerprint = none) :
      Visiting cl fingerprint (pages + 1) visit.number [visit]
        (.ret (.ok (visit.page.items.find? (hasFingerprint fingerprint))))
  | next {pages : Nat} (visit : Visit cl) {number : Int64} {visits : List (Visit cl)}
      {q : cl.Call (Option (MachineResource cl.json))}
      (hnext : visit.next? fingerprint = some number)
      (rest : Visiting cl fingerprint pages number visits q) :
      Visiting cl fingerprint (pages + 1) visit.number (visit :: visits) q

theorem afterPage_of_last {visit : Visit cl} (pages : Nat)
    (hlast : visit.next? fingerprint = none) :
    afterPage licenseId fingerprint pages visit.page =
      .ret (.ok (visit.page.items.find? (hasFingerprint fingerprint))) := by
  rw [Visit.next?] at hlast
  rw [afterPage]
  cases hfound : visit.page.items.find? (hasFingerprint fingerprint) with
  | some machine => rfl
  | none =>
      rw [hfound] at hlast
      simp only [hlast]

theorem afterPage_of_next {visit : Visit cl} (pages : Nat) {number : Int64}
    (hnext : visit.next? fingerprint = some number) :
    afterPage licenseId fingerprint pages visit.page =
      cl.findFrom licenseId fingerprint pages number := by
  rw [Visit.next?] at hnext
  rw [afterPage]
  cases hfound : visit.page.items.find? (hasFingerprint fingerprint) with
  | some machine =>
      rw [hfound] at hnext
      cases hnext
  | none =>
      rw [hfound] at hnext
      simp only [hnext]

theorem visiting_of_steps (pages : Nat) {number : Int64}
    (hsteps : Steps (cl.findFrom licenseId fingerprint pages number) events q)
    (hpages : ∀ event ∈ events, AnswersPage event) :
    ∃ visits, events = visits.map (Visit.event licenseId fingerprint) ∧
      Visiting cl fingerprint pages number visits q := by
  induction pages generalizing number events with
  | zero =>
      obtain ⟨rfl, rfl⟩ := steps_stop_iff.mp hsteps
      exact ⟨[], rfl, .outOfPages number⟩
  | succ pages ih =>
      rw [findFrom_succ] at hsteps
      rcases hsteps.of_andThen with ⟨p', hp', hvalue, rfl⟩ | ⟨err, hfront, rfl⟩ |
        ⟨page, front, back, rfl, hfront, hback⟩
      · have hstop : p' ≠ .stop := (returns_listMachines _).ne_stop hp'
        rcases steps_read hp' fun _ hmem => (hpages _ hmem).reads with
          ⟨rfl, -⟩ | ⟨_, _, _, _, rfl⟩
        · exact ⟨[], rfl, .waiting number (bind_ne_stop hvalue hstop)⟩
        · cases hvalue
      · rcases steps_read hfront fun _ hmem => (hpages _ hmem).reads with
          ⟨-, hnone⟩ | ⟨_, _, _, _, ⟨⟩⟩
        cases hnone
      · have hfirst := steps_read hfront fun _ hmem =>
          (hpages _ (List.mem_append_left back hmem)).reads
        rcases hfirst with ⟨-, hnone⟩ | ⟨response, _, rfl, hread, ⟨⟩⟩
        · cases hnone
        · let visit : Visit cl := ⟨number, response, page, hread⟩
          change Steps (afterPage licenseId fingerprint pages visit.page) back q at hback
          cases hnext : visit.next? fingerprint with
          | none =>
              rw [afterPage_of_last pages hnext] at hback
              obtain ⟨rfl, rfl⟩ := steps_ret_iff.mp hback
              exact ⟨[visit], rfl, .last visit hnext⟩
          | some next =>
              rw [afterPage_of_next pages hnext] at hback
              obtain ⟨visits, rfl, hvisiting⟩ := ih hback fun event hmem =>
                hpages event (List.mem_append_right _ hmem)
              exact ⟨visit :: visits, rfl, .next visit hnext hvisiting⟩

end Runs

section Numbers

variable {pages : Nat} {first number : Int64} {visit : Visit cl} {visits : List (Visit cl)}
  {q : cl.Call (Option (MachineResource cl.json))}

theorem asked_last (hlast : visit.next? fingerprint = none) :
    asked fingerprint first [visit] = [first] := by
  rw [asked, List.filterMap_cons_none hlast, List.filterMap_nil]

theorem asked_next (hnext : visit.next? fingerprint = some number) :
    asked fingerprint first (visit :: visits) = first :: asked fingerprint number visits := by
  rw [asked, List.filterMap_cons_some hnext, asked]

theorem toInt_of_next (hnext : visit.next? fingerprint = some number) :
    number.toInt = visit.page.page.number.toInt + 1 ∧
      number.toInt ≤ visit.page.page.totalPages.toInt := by
  rw [Visit.next?] at hnext
  split at hnext
  · cases hnext
  · rw [OffsetPage.nextPageNumber] at hnext
    split at hnext
    · rename_i hmore
      obtain rfl := Option.some.inj hnext
      have hlt := Int64.lt_iff_toInt_lt.mp hmore
      have hsucc := toInt_succ_of_lt hmore
      exact ⟨hsucc, by omega⟩
    · cases hnext

theorem getsOn_of_last (hlast : visit.next? fingerprint = none) : visit.GetsOn fingerprint :=
  fun hnext => absurd hlast hnext

theorem getsOn_iff (hnext : visit.next? fingerprint = some number) :
    visit.GetsOn fingerprint ↔ visit.number.toInt < number.toInt := by
  have hsucc := (toInt_of_next hnext).1
  constructor
  · intro hgetsOn
    have hle := Int64.le_iff_toInt_le.mp (hgetsOn (by rw [hnext]; exact Option.some_ne_none _))
    omega
  · intro hlt _
    apply Int64.le_iff_toInt_le.mpr
    omega

/-- The pages that came back are the first of those asked for. -/
theorem Visiting.prefix_asked (h : Visiting cl fingerprint pages first visits q) :
    visits.map Visit.number <+: asked fingerprint first visits := by
  induction h with
  | outOfPages => exact List.nil_prefix
  | waiting => exact List.nil_prefix
  | last visit hlast =>
      rw [asked_last hlast]
      exact List.prefix_rfl
  | next visit hnext _ ih =>
      rw [asked_next hnext, List.map_cons]
      exact List.cons_prefix_cons.mpr ⟨rfl, ih⟩

/-- One page that gets on is one number that is greater than the last. -/
theorem Visiting.increasing_iff (h : Visiting cl fingerprint pages first visits q) :
    ((asked fingerprint first visits).map Int64.toInt).Pairwise (· < ·) ↔
      ∀ visit ∈ visits, visit.GetsOn fingerprint := by
  induction h with
  | outOfPages => exact iff_of_true (List.pairwise_singleton _ _) nofun
  | waiting => exact iff_of_true (List.pairwise_singleton _ _) nofun
  | last visit hlast =>
      rw [asked_last hlast]
      refine iff_of_true (List.pairwise_singleton _ _) ?_
      rw [List.forall_mem_singleton]
      exact getsOn_of_last hlast
  | next visit hnext _ ih =>
      rw [List.forall_mem_cons, ← ih, getsOn_iff hnext, asked_next hnext]
      exact List.pairwise_cons_cons_iff_of_trans

/-- No number is greater than the page count of the page that it comes from. -/
theorem next_le {bound : Int}
    (htotals : ∀ visit ∈ visits, visit.page.page.totalPages.toInt ≤ bound) :
    ∀ n ∈ (visits.filterMap (Visit.next? fingerprint)).map Int64.toInt, n ≤ bound := by
  intro n hmem
  obtain ⟨number, hnumber, rfl⟩ := List.mem_map.mp hmem
  obtain ⟨visit, hvisit, hnext⟩ := List.mem_filterMap.mp hnumber
  exact (toInt_of_next hnext).2.trans (htotals visit hvisit)

theorem length_asked_le {bound : Int}
    (hincreasing : ((asked fingerprint 1 visits).map Int64.toInt).Pairwise (· < ·))
    (htotals : ∀ visit ∈ visits, visit.page.page.totalPages.toInt ≤ bound) :
    (asked fingerprint 1 visits).length ≤ max 1 bound := by
  rw [asked, List.map_cons] at hincreasing
  have hlength := add_length_le hincreasing (next_le htotals)
  rw [List.length_map, Int64.toInt_one] at hlength
  rw [asked, List.length_cons]
  omega

/-- A search that is cut short has asked for a page more than it was given. -/
theorem Visiting.length_asked (h : Visiting cl fingerprint pages first visits q)
    (hstop : q = .stop) : (asked fingerprint first visits).length = pages + 1 := by
  induction h with
  | outOfPages => rfl
  | waiting _ hgoing => exact absurd hstop hgoing
  | last => cases hstop
  | next visit hnext _ ih => rw [asked_next hnext, List.length_cons, ih hstop]

/-- However its requests are answered with pages, the search asks for greater and
greater numbers as long as every page gets it on, and only then.  It comes back
then within the page count it is told, if that is bounded. -/
theorem search_gets_on (cl : Client) (licenseId : cl.json.Uuid) (fingerprint : String)
    (pages : Nat) {events : List cl.Exchange}
    {q : cl.Call (Option (MachineResource cl.json))}
    (hsteps : Steps (cl.findMachineByFingerprint pages licenseId fingerprint) events q)
    (hpages : ∀ event ∈ events, AnswersPage event) :
    ∃ visits : List (Visit cl),
      events = visits.map (Visit.event licenseId fingerprint) ∧
        visits.map Visit.number <+: asked fingerprint 1 visits ∧
          (((asked fingerprint 1 visits).map Int64.toInt).Pairwise (· < ·) ↔
            ∀ visit ∈ visits, visit.GetsOn fingerprint) ∧
            ∀ bound : Int, (∀ visit ∈ visits, visit.GetsOn fingerprint) →
              (∀ visit ∈ visits, visit.page.page.totalPages.toInt ≤ bound) →
                (asked fingerprint 1 visits).length ≤ max 1 bound ∧
                  (max 1 bound ≤ pages → q ≠ .stop) := by
  obtain ⟨visits, hevents, hvisiting⟩ := visiting_of_steps pages hsteps hpages
  refine ⟨visits, hevents, hvisiting.prefix_asked, hvisiting.increasing_iff, ?_⟩
  intro bound hgetsOn htotals
  have hlength := length_asked_le (hvisiting.increasing_iff.mpr hgetsOn) htotals
  refine ⟨hlength, fun henough hstop => ?_⟩
  rw [hvisiting.length_asked hstop] at hlength
  omega

/-- Two pages, of which the first sends the search on to the second. -/
theorem search_gets_on_recorded :
    ∃ q, Steps (blankClient.findMachineByFingerprint 2 blankLicenseId "fingerprint")
        missedSearch q ∧
      ∃ visits : List (Visit blankClient),
        missedSearch = visits.map (Visit.event blankLicenseId "fingerprint") ∧
          visits.map Visit.number <+: asked "fingerprint" 1 visits ∧
            (((asked "fingerprint" 1 visits).map Int64.toInt).Pairwise (· < ·) ↔
              ∀ visit ∈ visits, visit.GetsOn "fingerprint") ∧
              ∀ bound : Int, (∀ visit ∈ visits, visit.GetsOn "fingerprint") →
                (∀ visit ∈ visits, visit.page.page.totalPages.toInt ≤ bound) →
                  (asked "fingerprint" 1 visits).length ≤ max 1 bound ∧
                    (max 1 bound ≤ (2 : Nat) → q ≠ .stop) := by
  refine ⟨_, steps_missedSearch,
    search_gets_on blankClient blankLicenseId "fingerprint" 2 steps_missedSearch ?_⟩
  intro event hmem
  rcases List.mem_cons.mp hmem with rfl | hmem
  · exact ⟨firstPage, read_pageResponse_first⟩
  · obtain rfl := List.mem_singleton.mp hmem
    exact ⟨secondPage, read_pageResponse_second⟩

end Numbers

section Stuck

def Increases (cl : Client) : Prop :=
  ∀ (licenseId : cl.json.Uuid) (fingerprint : String) (pages : Nat) (visits : List (Visit cl)) q,
    Steps (cl.findMachineByFingerprint pages licenseId fingerprint)
        (visits.map (Visit.event licenseId fingerprint)) q →
      (visits.map fun visit => visit.number.toInt).Pairwise (· < ·)

def ComesBack (cl : Client) : Prop :=
  ∀ (licenseId : cl.json.Uuid) (fingerprint : String) (pages : Nat) (visits : List (Visit cl)) q,
    Steps (cl.findMachineByFingerprint pages licenseId fingerprint)
        (visits.map (Visit.event licenseId fingerprint)) q →
      ∀ bound : Int, (∀ visit ∈ visits, visit.page.page.totalPages.toInt ≤ bound) →
        visits.length ≤ max 1 bound ∧ (max 1 bound ≤ pages → q ≠ .stop)

/-- The first page, whatever number was asked for. -/
def stuckVisit (number : Int64) : Visit blankClient :=
  ⟨number, pageResponse firstPage, firstPage, read_pageResponse_first⟩

def stuckVisits : Nat → Int64 → List (Visit blankClient)
  | 0, _ => []
  | pages + 1, number => stuckVisit number :: stuckVisits pages 2

theorem next_stuckVisit (number : Int64) : (stuckVisit number).next? "fingerprint" = some 2 := by
  simp only [Visit.next?, stuckVisit, find?_firstPage]
  rfl

/-- However many pages it may ask for, the search asks for one more. -/
theorem steps_stuckVisits (pages : Nat) (number : Int64) :
    Steps (blankClient.findFrom blankLicenseId "fingerprint" pages number)
      ((stuckVisits pages number).map (Visit.event blankLicenseId "fingerprint")) .stop := by
  induction pages generalizing number with
  | zero => exact .refl _
  | succ pages ih =>
      refine steps_findFrom_cons read_pageResponse_first ?_
      have hafter : afterPage blankLicenseId "fingerprint" pages firstPage =
          blankClient.findFrom blankLicenseId "fingerprint" pages 2 :=
        afterPage_of_next pages (next_stuckVisit number)
      rw [hafter]
      exact ih 2

theorem totalPages_stuckVisits (pages : Nat) (number : Int64) :
    ∀ visit ∈ stuckVisits pages number, visit.page.page.totalPages.toInt ≤ 2 := by
  induction pages generalizing number with
  | zero => exact nofun
  | succ pages ih => exact List.forall_mem_cons.mpr ⟨Int.le_refl 2, ih 2⟩

theorem not_increases_comesBack : ¬ Increases blankClient ∧ ¬ ComesBack blankClient := by
  have hsteps := steps_stuckVisits 3 1
  constructor
  · intro h
    have hnumbers := h blankLicenseId "fingerprint" 3 (stuckVisits 3 1) .stop hsteps
    have hlt : ([1, 2, 2] : List Int).Pairwise (· < ·) := hnumbers
    exact absurd hlt (by decide)
  · intro h
    have hback := h blankLicenseId "fingerprint" 3 (stuckVisits 3 1) .stop hsteps 2
      (totalPages_stuckVisits 3 1)
    exact hback.2 (by decide) rfl

end Stuck

end Tamga.SearchProgress
