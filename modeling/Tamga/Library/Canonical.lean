import Mathlib.Data.List.Sort
import Tamga.Library.Prelude

namespace Library.Canonical

open Library.Prelude

section Sorting

variable {α : Type} {r : α → α → Prop} [DecidableRel r] [Std.Total r] [IsTrans α r]

/-- Where the order tells the members of a list apart, sorting forgets exactly
their positions. -/
theorem insertionSort_eq_of_perm {a b : List α} (h : a.Perm b)
    (hanti : ∀ x ∈ a, ∀ y ∈ a, r x y → r y x → x = y) :
    a.insertionSort r = b.insertionSort r := by
  have hsorted : (a.insertionSort r).Perm (b.insertionSort r) :=
    (List.perm_insertionSort r a).trans (h.trans (List.perm_insertionSort r b).symm)
  apply hsorted.eq_of_pairwise
  · intro x y hx hy
    apply hanti
    · exact (List.mem_insertionSort r).mp hx
    · exact h.mem_iff.mpr ((List.mem_insertionSort r).mp hy)
  · exact List.pairwise_insertionSort r a
  · exact List.pairwise_insertionSort r b

omit [Std.Total r] [IsTrans α r] in
theorem perm_of_insertionSort_eq {a b : List α}
    (h : a.insertionSort r = b.insertionSort r) : a.Perm b :=
  (List.perm_insertionSort r a).symm.trans (h ▸ List.perm_insertionSort r b)

omit [DecidableRel r] [Std.Total r] [IsTrans α r] in
theorem pair_sublist_of_mem {x y : α} {list : List α} (hx : x ∈ list) (hy : y ∈ list)
    (h : x ≠ y) : [x, y].Sublist list ∨ [y, x].Sublist list := by
  induction list with
  | nil => cases hx
  | cons z list ih =>
      rcases List.mem_cons.mp hx with rfl | hxrest
      · have hyrest := List.mem_of_ne_of_mem h.symm hy
        exact Or.inl ((List.singleton_sublist.mpr hyrest).cons_cons x)
      · rcases List.mem_cons.mp hy with rfl | hyrest
        · exact Or.inr ((List.singleton_sublist.mpr hxrest).cons_cons y)
        · exact (ih hxrest hyrest).imp (List.Sublist.cons z) (List.Sublist.cons z)

omit [DecidableRel r] [Std.Total r] [IsTrans α r] in
/-- In a sorted list the order says which of two members stands first. -/
theorem pair_sublist_iff_of_pairwise {x y : α} {list : List α} (hsorted : list.Pairwise r)
    (hanti : ∀ {x y}, r x y → r y x → x = y) (hx : x ∈ list) (hy : y ∈ list) (h : x ≠ y) :
    [x, y].Sublist list ↔ r x y := by
  constructor
  · exact fun hpair => List.pairwise_pair.mp (hsorted.sublist hpair)
  · intro hxy
    rcases pair_sublist_of_mem hx hy h with hpair | hpair
    · exact hpair
    · exact absurd (hanti hxy (List.pairwise_pair.mp (hsorted.sublist hpair))) h

end Sorting

section Bytes

theorem asBytes_inj {a b : String} : asBytes a = asBytes b ↔ a = b := by
  constructor
  · intro h
    apply String.toByteArray_inj.mp
    exact ByteArray.ext (Array.toList_inj.mp h)
  · rintro rfl
    rfl

theorem asBytes_append (a b : String) : asBytes (a ++ b) = asBytes a ++ asBytes b := by
  simp only [asBytes, String.toUTF8_eq_toByteArray, String.toByteArray_append,
    ByteArray.toList_data_append]

theorem asBytes_eq_flatMap (s : String) : asBytes s = s.toList.flatMap String.utf8EncodeChar := by
  rw [asBytes, String.toUTF8_eq_toByteArray, ← String.utf8Encode_toList, List.utf8Encode,
    List.data_toByteArray]

/-- The bytes of an ASCII string are the numbers of its characters. -/
theorem exists_of_mem_asBytes {s : String} {byte : UInt8}
    (hascii : ∀ c ∈ s.toList, c.toNat < 0x80) (h : byte ∈ asBytes s) :
    ∃ c ∈ s.toList, byte.toNat = c.toNat := by
  rw [asBytes_eq_flatMap, List.mem_flatMap] at h
  obtain ⟨c, hc, hbyte⟩ := h
  have hlt := hascii c hc
  have hsize : c.utf8Size = 1 :=
    Char.utf8Size_eq_one_iff.mpr (UInt32.le_iff_toNat_le.mpr (Nat.le_of_lt_succ hlt))
  rw [String.utf8EncodeChar_eq_singleton hsize, List.mem_singleton] at hbyte
  refine ⟨c, hc, ?_⟩
  rw [hbyte, UInt32.toNat_toUInt8]
  exact Nat.mod_eq_of_lt (Nat.lt_trans hlt (by decide))

/-- `Ord for str`: bytewise, over the UTF-8 encoding. -/
def BytesLe (a b : String) : Prop := asBytes a ≤ asBytes b

instance : DecidableRel BytesLe := fun a b => List.decidableLE (asBytes a) (asBytes b)

instance : Std.Total BytesLe := ⟨fun a b => List.le_total (asBytes a) (asBytes b)⟩

instance : IsTrans String BytesLe := ⟨fun _ _ _ => List.le_trans⟩

theorem BytesLe.antisymm {a b : String} (hab : BytesLe a b) (hba : BytesLe b a) : a = b :=
  asBytes_inj.mp (List.le_antisymm hab hba)

/-- `sort_unstable` on strings: equal strings cannot be told apart, so every
sort gives this list. -/
def sortUnstable (strings : List String) : List String := strings.insertionSort BytesLe

theorem sortUnstable_eq_iff {a b : List String} :
    sortUnstable a = sortUnstable b ↔ a.Perm b := by
  constructor
  · exact perm_of_insertionSort_eq
  · intro h
    exact insertionSort_eq_of_perm h fun _ _ _ _ => BytesLe.antisymm

theorem sortUnstable_perm (strings : List String) : (sortUnstable strings).Perm strings :=
  List.perm_insertionSort BytesLe strings

end Bytes

section Framing

variable {α : Type}

def frame (separator : α) (blocks : List (List α)) : List α :=
  blocks.flatMap (separator :: ·)

/-- A prefix whose members are all in a class, before a rest that is empty or
opens outside the class, is determined. -/
theorem append_cancel {p : α → Prop} {x y s t : List α}
    (hx : ∀ c ∈ x, p c) (hy : ∀ c ∈ y, p c)
    (hs : ∀ c ∈ s.head?, ¬ p c) (ht : ∀ c ∈ t.head?, ¬ p c)
    (h : x ++ s = y ++ t) : x = y ∧ s = t := by
  induction x generalizing y with
  | nil =>
      cases y with
      | nil => exact ⟨rfl, h⟩
      | cons d y =>
          have hd : s.head? = some d := by simpa using congrArg List.head? h
          exact absurd (hy d List.mem_cons_self) (hs d hd)
  | cons c x ih =>
      cases y with
      | nil =>
          have hc : t.head? = some c := by simpa using (congrArg List.head? h).symm
          exact absurd (hx c List.mem_cons_self) (ht c hc)
      | cons d y =>
          simp only [List.cons_append, List.cons.injEq] at h
          obtain ⟨rfl, hrest⟩ := ih (fun c hmem => hx c (List.mem_cons_of_mem _ hmem))
            (fun c hmem => hy c (List.mem_cons_of_mem _ hmem)) h.2
          exact ⟨by rw [h.1], hrest⟩

theorem append_frame_cancel {separator : α} {x y : List α} {as bs : List (List α)}
    (hx : separator ∉ x) (hy : separator ∉ y)
    (h : x ++ frame separator as = y ++ frame separator bs) :
    x = y ∧ frame separator as = frame separator bs := by
  have hopens (blocks : List (List α)) :
      ∀ c ∈ (frame separator blocks).head?, ¬ c ≠ separator := by
    cases blocks <;> simp [frame]
  exact append_cancel (fun c hc => ne_of_mem_of_not_mem hc hx)
    (fun c hc => ne_of_mem_of_not_mem hc hy) (hopens as) (hopens bs) h

theorem frame_injective {separator : α} {as bs : List (List α)}
    (ha : ∀ block ∈ as, separator ∉ block) (hb : ∀ block ∈ bs, separator ∉ block)
    (h : frame separator as = frame separator bs) : as = bs := by
  induction as generalizing bs with
  | nil =>
      cases bs with
      | nil => rfl
      | cons b bs => simp [frame] at h
  | cons a as ih =>
      cases bs with
      | nil => simp [frame] at h
      | cons b bs =>
          have hcut : a ++ frame separator as = b ++ frame separator bs := by
            simpa [frame] using h
          obtain ⟨hblock, hrest⟩ := append_frame_cancel (ha a List.mem_cons_self)
            (hb b List.mem_cons_self) hcut
          rw [hblock, ih (fun block hmem => ha block (List.mem_cons_of_mem _ hmem))
            (fun block hmem => hb block (List.mem_cons_of_mem _ hmem)) hrest]

theorem append_frame_eq_intercalate (separator : α) (first : List α) (blocks : List (List α)) :
    first ++ frame separator blocks = [separator].intercalate (first :: blocks) := by
  induction blocks generalizing first with
  | nil => simp [frame]
  | cons block blocks ih =>
      rw [List.intercalate_cons_cons, ← ih]
      simp [frame]

/-- Blocks without the separator can be read back. -/
theorem splitOn_append_frame [BEq α] [LawfulBEq α] {separator : α} {first : List α}
    {blocks : List (List α)} (hfirst : separator ∉ first)
    (hblocks : ∀ block ∈ blocks, separator ∉ block) :
    (first ++ frame separator blocks).splitOn separator = first :: blocks := by
  rw [append_frame_eq_intercalate]
  apply List.splitOn_intercalate
  · exact List.forall_mem_cons.mpr ⟨hfirst, hblocks⟩
  · exact List.cons_ne_nil _ _

end Framing

section Maps

variable {κ ν : Type} [DecidableEq κ]

/-- The finite map that a list of entries stands for. -/
def mapOf (entries : List (κ × ν)) : κ → Option ν := fun key => entries.lookup key

theorem mapOf_eq_some_iff {entries : List (κ × ν)} {key : κ} {value : ν}
    (hkeys : (entries.map Prod.fst).Nodup) :
    mapOf entries key = some value ↔ (key, value) ∈ entries := by
  induction entries with
  | nil => simp [mapOf]
  | cons entry rest ih =>
      obtain ⟨k, v⟩ := entry
      rw [List.map_cons, List.nodup_cons] at hkeys
      by_cases hk : key = k
      · subst key
        have hrest : (k, value) ∉ rest := fun hmem =>
          hkeys.1 (List.mem_map.mpr ⟨_, hmem, rfl⟩)
        simp [mapOf, hrest, eq_comm]
      · have hlookup : mapOf ((k, v) :: rest) key = mapOf rest key := by
          simp [mapOf, List.lookup_cons, beq_false_of_ne hk]
        rw [hlookup, ih hkeys.2]
        simp [hk]

/-- With distinct keys, a map determines its entries up to their order. -/
theorem mapOf_eq_iff_perm {a b : List (κ × ν)}
    (ha : (a.map Prod.fst).Nodup) (hb : (b.map Prod.fst).Nodup) :
    mapOf a = mapOf b ↔ a.Perm b := by
  constructor
  · intro h
    apply (List.perm_ext_iff_of_nodup ha.of_map hb.of_map).mpr
    rintro ⟨key, value⟩
    rw [← mapOf_eq_some_iff ha, ← mapOf_eq_some_iff hb, h]
  · intro h
    funext key
    ext value
    rw [mapOf_eq_some_iff ha, mapOf_eq_some_iff hb, h.mem_iff]

end Maps

end Library.Canonical
