import Tamga.MachineSearch

/-!
The search while other machines of the licence come and go.  Pages are read by
offset, so a machine is missed when the row before it goes just as it is the
first that was not read yet; it is found in every run in which that never happens.
-/

namespace Tamga.SearchRace

open Library.Interaction.Prog
open Library.Paging
open Tamga.Models
open Tamga.ApiModels
open Tamga.MachineSearch
open Tamga.ServerResponses

variable {cl : Client} {licenseId : cl.json.Uuid} {fingerprint : String}
  {machine : MachineResource cl.json} {around : Nat → Around (MachineResource cl.json)}

section Found

def OnlyOne (fingerprint : String) (around : Around (MachineResource cl.json)) : Prop :=
  ∀ other, other ∈ around.before ∨ other ∈ around.after →
    hasFingerprint fingerprint other = false

theorem eq_of_mem_page {around : Around (MachineResource cl.json)}
    (honly : OnlyOne fingerprint around) {k : Nat} {other : MachineResource cl.json}
    (h : (page 100 (around.rows machine) k).find? (hasFingerprint fingerprint) = some other) :
    other = machine := by
  have hmatch := List.find?_some h
  have hmem := List.mem_of_mem_drop (List.mem_of_mem_take (List.mem_of_find?_eq_some h))
  rw [Around.rows, List.mem_append, List.mem_cons] at hmem
  rcases hmem with hbefore | rfl | hafter
  · exact absurd hmatch (Bool.eq_false_iff.mp (honly other (Or.inl hbefore)))
  · rfl
  · exact absurd hmatch (Bool.eq_false_iff.mp (honly other (Or.inr hafter)))

theorem not_mem_of_find?_eq_none {rows : List (MachineResource cl.json)}
    (hmachine : hasFingerprint fingerprint machine = true)
    (h : rows.find? (hasFingerprint fingerprint) = none) : machine ∉ rows :=
  fun hmem => List.find?_eq_none.mp h machine hmem hmachine

/-- The invariant of the loop is that the machine stands at or after the first row
of the page that is read next, if one is. -/
theorem searching_finds (hmachine : hasFingerprint fingerprint machine = true)
    (honly : ∀ i, OnlyOne fingerprint (around i)) {k pages : Nat} {numbers : List Int64}
    {q : cl.Call (Option (MachineResource cl.json))}
    (h : Searching cl fingerprint (fun i => (around i).rows machine) k pages numbers q)
    (hspares : ∀ i, k ≤ i → i + 1 < k + numbers.length →
      Relation.ReflTransGen (Spares (100 * (i + 1))) (around i) (around (i + 1)))
    (hahead : numbers ≠ [] → 100 * k ≤ (around k).before.length) :
    (∀ found, q = .ret (.ok found) → found = some machine) ∧
      (q = .stop → ∀ i, k ≤ i → i < k + pages → 100 * (i + 1) ≤ (around i).before.length) := by
  induction h with
  | outOfPages k =>
      refine ⟨?_, fun _ i _ _ => by omega⟩
      rintro _ ⟨⟩
  | waiting hvalue hstop =>
      exact ⟨fun found hq => (by cases hvalue.symm.trans (congrArg value? hq)),
        fun hq => absurd hq hstop⟩
  | gaveUp =>
      constructor
      · rintro _ ⟨⟩
      · rintro ⟨⟩
  | @found k _ _ _ _ hfound =>
      constructor
      · rintro _ ⟨⟩
        rw [eq_of_mem_page (honly k) hfound]
      · rintro ⟨⟩
  | absent _ hnone hlast =>
      have hpage := not_mem_of_find?_eq_none hmachine hnone
      have hmore := (Around.ahead_of_not_mem_page (by decide) (hahead nofun) hpage).2
      exact absurd hmore (Nat.not_lt_of_le hlast)
  | @next k pages _ numbers _ _ hpassed _ ih =>
      have hpage := not_mem_of_find?_eq_none hmachine hpassed.1
      have hnext := (Around.ahead_of_not_mem_page (by decide) (hahead nofun) hpage).1
      rw [List.length_cons] at hspares
      obtain ⟨hfound, hstop⟩ := ih (fun i hlow hhigh => hspares i (by omega) (by omega))
        fun hmore => by
          have hlength := List.length_pos_iff.mpr hmore
          exact ahead_of_spares (hspares k (Nat.le_refl k) (by omega)) hnext
      refine ⟨hfound, fun hq i hlow hhigh => ?_⟩
      rcases Nat.eq_or_lt_of_le hlow with rfl | hlow
      · exact hnext
      · exact hstop hq i hlow (by omega)

/-- The search comes back with the machine, whatever other machines come and go, if no row
before it goes between two answers while it is the first that was not read yet, and the
rows before it are some time too few to keep it off the page that is read. -/
theorem found_unless_skipped (cl : Client) (licenseId : cl.json.Uuid) (fingerprint : String)
    (machine : MachineResource cl.json) (around : Nat → Around (MachineResource cl.json))
    (hmachine : hasFingerprint fingerprint machine = true)
    (honly : ∀ i, OnlyOne fingerprint (around i)) (moment pages : Nat)
    (hcaught : (around moment).before.length < 100 * (moment + 1)) (hpages : moment < pages)
    (server : List cl.Exchange → (op : Op) → Reply cl.reqwest op)
    (hserved : Served licenseId fingerprint (fun i => (around i).rows machine)
      (exec server [] (cl.findMachineByFingerprint pages licenseId fingerprint)).1)
    (hspares : ∀ i, i + 1 < (answered
        (exec server [] (cl.findMachineByFingerprint pages licenseId fingerprint)).1).length →
      Relation.ReflTransGen (Spares (100 * (i + 1))) (around i) (around (i + 1))) :
    let run := exec server [] (cl.findMachineByFingerprint pages licenseId fingerprint)
    run.2 = some (.ok (some machine)) ∨ ∃ err, run.2 = some (.error err) ∧ GaveUp run.1 err := by
  intro run
  obtain ⟨events, q, hsteps, hend, hexec⟩ :=
    exec_steps server [] (cl.findMachineByFingerprint pages licenseId fingerprint)
  have hrun : run = (events, q.value?) := hexec
  rw [hexec, List.nil_append] at hserved hspares
  dsimp only at hspares
  obtain ⟨hgaveUp, numbers, hnumbers, hsearching⟩ :=
    steps_findFrom (k := 0) (fun i => (around i).rows machine) pages rfl hsteps
      (by simpa only [Nat.zero_add] using hserved)
  have hlength : (answered events).length = numbers.length := by
    simpa only [List.length_map] using congrArg List.length hnumbers
  obtain ⟨hfound, hstop⟩ := searching_finds hmachine honly hsearching
    (fun i _ hi => hspares i (by omega)) fun _ => Nat.zero_le _
  rw [hrun]
  cases hvalue : q.value? with
  | none =>
      have hlate := hstop (hend hvalue) moment (Nat.zero_le _) (by omega)
      omega
  | some outcome =>
      rw [value?_eq_some_iff] at hvalue
      cases outcome with
      | error err => exact Or.inr ⟨err, rfl, hgaveUp err hvalue⟩
      | ok found => exact Or.inl (by rw [hfound found hvalue])

/-- The machine has a hundred and one others before it, until the first of them goes once
the first page has been read. -/
def sparing : Nat → Around (MachineResource blankClient.json)
  | 0 => ⟨otherMachine 0 :: (otherMachines ++ [otherMachine 100]), []⟩
  | _ + 1 => ⟨otherMachines ++ [otherMachine 100], []⟩

theorem onlyOne_sparing (i : Nat) : OnlyOne "fingerprint" (sparing i) := by
  have hothers : ∀ other ∈ otherMachines ++ [otherMachine 100],
      hasFingerprint "fingerprint" other = false := by
    intro other hmem
    rcases List.mem_append.mp hmem with hmem | hmem
    · exact hasFingerprint_otherMachines other hmem
    · obtain rfl := List.mem_singleton.mp hmem
      exact hasFingerprint_otherMachine 100
  rintro other (hmem | hmem)
  · cases i with
    | zero =>
        rcases List.mem_cons.mp hmem with rfl | hmem
        · exact hasFingerprint_otherMachine 0
        · exact hothers other hmem
    | succ i => exact hothers other hmem
  · cases i <;> cases hmem

theorem served_sparing :
    Served blankLicenseId "fingerprint" (fun i => (sparing i).rows soughtMachine)
      (twoPages 102) := by
  refine served_twoPages ?_ (isPage_lastPage ?_)
  · have hrows : (sparing 0).rows soughtMachine =
        (othersPage 102).items ++ [otherMachine 100, soughtMachine] := by
      simp [sparing, Around.rows, othersPage]
    rw [hrows]
    exact isPage_othersPage rfl (by decide) (by decide)
  · rw [sparing, List.length_append, length_otherMachines]
    rfl

theorem found_unless_skipped_recorded :
    let run := exec (fun _ => twoPageServer 102) []
      (blankClient.findMachineByFingerprint 2 blankLicenseId "fingerprint")
    run.2 = some (.ok (some soughtMachine)) ∨
      ∃ err, run.2 = some (.error err) ∧ GaveUp run.1 err := by
  refine found_unless_skipped blankClient blankLicenseId "fingerprint" soughtMachine sparing rfl
    onlyOne_sparing 1 2 ?_ (by decide) _ ?_ ?_
  · rw [sparing, List.length_append, length_otherMachines]
    decide
  · rw [exec_twoPageServer]
    exact served_sparing
  · rintro (_ | i) -
    · refine .single ⟨.deleteBefore [] _ [] (otherMachine 0), ?_⟩
      rintro ⟨hfirst, -⟩
      rw [sparing, List.length_cons, List.length_append, length_otherMachines] at hfirst
      cases hfirst
    · exact .refl

end Found

section Missed

/-- The search comes back with a machine that is there throughout, whatever other
machines come and go. -/
def NeverMisses (cl : Client) : Prop :=
  ∀ (licenseId : cl.json.Uuid) (fingerprint : String) (machine : MachineResource cl.json)
    (around : Nat → Around (MachineResource cl.json)),
    hasFingerprint fingerprint machine = true → (∀ i, OnlyOne fingerprint (around i)) →
      (∀ i, Relation.ReflTransGen Change (around i) (around (i + 1))) →
        ∀ pages events outcome,
          Steps (cl.findMachineByFingerprint pages licenseId fingerprint) events (.ret outcome) →
            Served licenseId fingerprint (fun i => (around i).rows machine) events →
              outcome = .ok (some machine) ∨ ∃ err, outcome = .error err ∧ GaveUp events err

def firstPage : OffsetPage (MachineResource blankClient.json) := othersPage 101

theorem find?_firstPage : firstPage.items.find? (hasFingerprint "fingerprint") = none :=
  find?_othersPage 101

theorem read_pageResponse_first :
    blankClient.readMachinePage (pageResponse firstPage) = .ok firstPage :=
  read_othersPage 101

/-- A hundred machines before the one searched for; the first of them goes once
the first page has been read. -/
def shrinking : Nat → Around (MachineResource blankClient.json)
  | 0 => ⟨otherMachine 0 :: otherMachines, []⟩
  | _ + 1 => ⟨otherMachines, []⟩

def secondPage : OffsetPage (MachineResource blankClient.json) := ⟨[], ⟨2, 100, 100, 1⟩⟩

theorem length_rows_shrinking_one : ((shrinking 1).rows soughtMachine).length = 100 := by
  rw [Around.rows, List.length_append, shrinking, length_otherMachines]
  rfl

theorem isPage_firstPage : IsPage ((shrinking 0).rows soughtMachine) 0 firstPage := by
  have hback : 0 < [soughtMachine].length := by decide
  exact isPage_othersPage rfl hback (by decide)

theorem isPage_secondPage : IsPage ((shrinking 1).rows soughtMachine) 1 secondPage where
  items := by
    refine (List.take_eq_nil_iff.mpr (Or.inr (List.drop_eq_nil_iff.mpr ?_))).symm
    rw [length_rows_shrinking_one]
  number := rfl
  size := rfl
  total := by
    rw [length_rows_shrinking_one]
    rfl
  totalPages := by
    rw [pageCount, length_rows_shrinking_one]
    rfl

theorem read_pageResponse_second :
    blankClient.readMachinePage (pageResponse secondPage) = .ok secondPage :=
  readMachinePage_page roundTrips_blankClient fun _ hmem => absurd hmem List.not_mem_nil

def missedSearch : List blankClient.Exchange :=
  [⟨.send (searchRequest blankClient blankLicenseId "fingerprint" 1),
      .ok (pageResponse firstPage)⟩,
    ⟨.send (searchRequest blankClient blankLicenseId "fingerprint" 2),
      .ok (pageResponse secondPage)⟩]

theorem steps_missedSearch :
    Steps (blankClient.findMachineByFingerprint 2 blankLicenseId "fingerprint") missedSearch
      (.ret (.ok none)) := by
  refine steps_findFrom_cons read_pageResponse_first ?_
  simp only [afterPage, find?_firstPage]
  exact steps_findFrom_cons read_pageResponse_second (.refl _)

theorem served_missedSearch :
    Served blankLicenseId "fingerprint" (fun i => (shrinking i).rows soughtMachine)
      missedSearch := by
  rintro (_ | _ | i) request reply hget
  · obtain ⟨rfl, rfl⟩ := Prod.mk.inj (Option.some.inj hget)
    exact ⟨0, 1, _, firstPage, rfl, rfl, rfl, read_pageResponse_first, isPage_firstPage⟩
  · obtain ⟨rfl, rfl⟩ := Prod.mk.inj (Option.some.inj hget)
    exact ⟨1, 2, _, secondPage, rfl, rfl, rfl, read_pageResponse_second, isPage_secondPage⟩
  · cases hget

theorem not_neverMisses : ¬ NeverMisses blankClient := by
  intro h
  have honly : ∀ i, OnlyOne "fingerprint" (shrinking i) := by
    rintro (_ | i) other (hmem | hmem)
    · rcases List.mem_cons.mp hmem with rfl | hmem
      · exact hasFingerprint_otherMachine 0
      · exact hasFingerprint_otherMachines other hmem
    · cases hmem
    · exact hasFingerprint_otherMachines other hmem
    · cases hmem
  have hchanges : ∀ i, Relation.ReflTransGen Change (shrinking i) (shrinking (i + 1)) := by
    rintro (_ | i)
    · exact .single (.deleteBefore [] otherMachines [] (otherMachine 0))
    · exact .refl
  rcases h blankLicenseId "fingerprint" soughtMachine shrinking rfl honly hchanges 2 missedSearch
    (.ok none) steps_missedSearch served_missedSearch with hfound | ⟨_, herror, -⟩
  · cases hfound
  · cases herror

end Missed

end Tamga.SearchRace
