import Mathlib.Data.List.Perm.Basic
import Tamga.Library.Canonical

namespace Library.JsonText

open Library.Canonical

inductive Value where
  | null
  | bool (value : Bool)
  | int (value : Int)
  | string (text : String)
  | array (items : List Value)
  | object (members : List (String × Value))

section Printing

/-- How a character stands in a string. -/
def escape (c : Char) : List Char :=
  if c = '"' then ['\\', '"']
  else if c = '\\' then ['\\', '\\']
  else if c = '\x08' then ['\\', 'b']
  else if c = '\x0c' then ['\\', 'f']
  else if c = '\n' then ['\\', 'n']
  else if c = '\r' then ['\\', 'r']
  else if c = '\t' then ['\\', 't']
  else if c.toNat < 0x20 then
    ['\\', 'u', '0', '0', Nat.digitChar (c.toNat / 16), Nat.digitChar (c.toNat % 16)]
  else [c]

def quoted (text : String) : List Char :=
  '"' :: (text.toList.flatMap escape ++ ['"'])

def decimal (i : Int) : List Char :=
  if i < 0 then '-' :: Nat.toDigits 10 i.natAbs else Nat.toDigits 10 i.natAbs

def commas : List (List Char) → List Char
  | [] => []
  | first :: rest => first ++ frame ',' rest

def member (key : String) (printed : List Char) : List Char :=
  quoted key ++ ':' :: printed

mutual

/-- The compact form, with members in the order they are listed. -/
def write : Value → List Char
  | .null => "null".toList
  | .bool true => "true".toList
  | .bool false => "false".toList
  | .int i => decimal i
  | .string text => quoted text
  | .array items => '[' :: (commas (writeItems items) ++ [']'])
  | .object members => '\x7b' :: (commas (writeMembers members) ++ ['\x7d'])

def writeItems : List Value → List (List Char)
  | [] => []
  | item :: items => write item :: writeItems items

def writeMembers : List (String × Value) → List (List Char)
  | [] => []
  | (key, value) :: members => member key (write value) :: writeMembers members

end

end Printing

section Ordering

def keyLe (a b : String × Value) : Prop := BytesLe a.1 b.1

instance : DecidableRel keyLe := fun a b => inferInstanceAs (Decidable (BytesLe a.1 b.1))

mutual

/-- Every map sorted by key, as a `BTreeMap` keeps it. -/
def sorted : Value → Value
  | .array items => .array (sortedItems items)
  | .object members => .object ((sortedMembers members).insertionSort keyLe)
  | value => value

def sortedItems : List Value → List Value
  | [] => []
  | item :: items => sorted item :: sortedItems items

def sortedMembers : List (String × Value) → List (String × Value)
  | [] => []
  | (key, value) :: members => (key, sorted value) :: sortedMembers members

end

mutual

/-- Equal up to the order of object keys at every depth. -/
def Same : Value → Value → Prop
  | .array items, .array items' => SameItems items items'
  | .object members, .object members' => SameMembers members members'
  | .null, .null => True
  | .bool a, .bool b => a = b
  | .int i, .int j => i = j
  | .string s, .string t => s = t
  | _, _ => False

def SameItems : List Value → List Value → Prop
  | [], items' => items' = []
  | item :: items, items' =>
      ∃ item' rest, items' = item' :: rest ∧ Same item item' ∧ SameItems items rest

/-- Each member is found on the other side, wherever it stands there. -/
def SameMembers : List (String × Value) → List (String × Value) → Prop
  | [], members' => members' = []
  | (key, value) :: members, members' =>
      ∃ front value' back, members' = front ++ (key, value') :: back ∧
        Same value value' ∧ SameMembers members (front ++ back)

end

mutual

def DistinctKeys : Value → Prop
  | .array items => DistinctItems items
  | .object members => (members.map Prod.fst).Nodup ∧ DistinctMembers members
  | _ => True

def DistinctItems : List Value → Prop
  | [] => True
  | item :: items => DistinctKeys item ∧ DistinctItems items

def DistinctMembers : List (String × Value) → Prop
  | [] => True
  | (_, value) :: members => DistinctKeys value ∧ DistinctMembers members

end

end Ordering

theorem Value.induct {motive : Value → Prop} (null : motive .null)
    (bool : ∀ value, motive (.bool value)) (int : ∀ value, motive (.int value))
    (string : ∀ text, motive (.string text))
    (array : ∀ items, (∀ item ∈ items, motive item) → motive (.array items))
    (object : ∀ members, (∀ m ∈ members, motive m.2) → motive (.object members))
    (value : Value) : motive value := by
  refine @Value.rec motive (fun items => ∀ item ∈ items, motive item)
    (fun members => ∀ m ∈ members, motive m.2) (fun m => motive m.2)
    null bool int string array object ?_ ?_ ?_ ?_ ?_ value
  · simp
  · intro item items hitem hitems
    exact List.forall_mem_cons.mpr ⟨hitem, hitems⟩
  · simp
  · intro m members hmember hmembers
    exact List.forall_mem_cons.mpr ⟨hmember, hmembers⟩
  · intro key value hvalue
    exact hvalue

@[simp] theorem writeItems_eq (items : List Value) : writeItems items = items.map write := by
  induction items with
  | nil => rfl
  | cons item items ih => rw [writeItems, ih, List.map_cons]

def writeMember (m : String × Value) : List Char := member m.1 (write m.2)

@[simp] theorem writeMembers_eq (members : List (String × Value)) :
    writeMembers members = members.map writeMember := by
  induction members with
  | nil => rfl
  | cons m members ih => rw [writeMembers, ih, List.map_cons, writeMember]

@[simp] theorem sortedItems_eq (items : List Value) :
    sortedItems items = items.map sorted := by
  induction items with
  | nil => rfl
  | cons item items ih => rw [sortedItems, ih, List.map_cons]

def sortedMember (m : String × Value) : String × Value := (m.1, sorted m.2)

@[simp] theorem sortedMembers_eq (members : List (String × Value)) :
    sortedMembers members = members.map sortedMember := by
  induction members with
  | nil => rfl
  | cons m members ih => rw [sortedMembers, ih, List.map_cons, sortedMember]

@[simp] theorem distinctItems_iff {items : List Value} :
    DistinctItems items ↔ ∀ item ∈ items, DistinctKeys item := by
  induction items with
  | nil => simp [DistinctItems]
  | cons item items ih => rw [DistinctItems, ih, List.forall_mem_cons]

@[simp] theorem distinctMembers_iff {members : List (String × Value)} :
    DistinctMembers members ↔ ∀ m ∈ members, DistinctKeys m.2 := by
  induction members with
  | nil => simp [DistinctMembers]
  | cons m members ih => rw [DistinctMembers, ih, List.forall_mem_cons]

section Reading

def unescapeName : List Char → Option (Char × List Char)
  | 'u' :: _ :: _ :: high :: low :: rest =>
      some (Char.ofNat (16 * "0123456789abcdef".toList.idxOf high +
        "0123456789abcdef".toList.idxOf low), rest)
  | 'b' :: rest => some ('\x08', rest)
  | 'f' :: rest => some ('\x0c', rest)
  | 'n' :: rest => some ('\n', rest)
  | 'r' :: rest => some ('\r', rest)
  | 't' :: rest => some ('\t', rest)
  | c :: rest => some (c, rest)
  | [] => none

/-- The first character that a string body spells. -/
def unescape : List Char → Option (Char × List Char)
  | [] => none
  | c :: rest =>
      if c = '"' then none else if c = '\\' then unescapeName rest else some (c, rest)

theorem idxOf_digitChar : ∀ n < 16,
    "0123456789abcdef".toList.idxOf (Nat.digitChar n) = n := by decide

theorem unescape_escape (c : Char) (rest : List Char) :
    unescape (escape c ++ rest) = some (c, rest) := by
  unfold escape
  split_ifs with hquote hbackslash hb hf hn hr ht hcontrol
  · subst c; rfl
  · subst c; rfl
  · subst c; rfl
  · subst c; rfl
  · subst c; rfl
  · subst c; rfl
  · subst c; rfl
  · have hcode : 16 * (c.toNat / 16) + c.toNat % 16 = c.toNat := by omega
    simp only [List.cons_append, List.nil_append, unescape, unescapeName]
    rw [idxOf_digitChar _ (by omega), idxOf_digitChar _ (by omega), hcode, Char.ofNat_toNat]
    rfl
  · simp [unescape, hquote, hbackslash]

theorem body_cancel {x y s t : List Char}
    (h : x.flatMap escape ++ '"' :: s = y.flatMap escape ++ '"' :: t) : x = y ∧ s = t := by
  have hclosed (rest : List Char) : unescape ('"' :: rest) = none := rfl
  induction x generalizing y with
  | nil =>
      cases y with
      | nil => exact ⟨rfl, by simpa using h⟩
      | cons d y =>
          have hread := congrArg unescape h
          rw [List.flatMap_cons, List.append_assoc, unescape_escape] at hread
          exact absurd hread (by simp [hclosed])
  | cons c x ih =>
      have hread := congrArg unescape h
      rw [List.flatMap_cons, List.append_assoc, unescape_escape] at hread
      cases y with
      | nil => exact absurd hread (by simp [hclosed])
      | cons d y =>
          rw [List.flatMap_cons, List.append_assoc, unescape_escape, Option.some.injEq,
            Prod.mk.injEq] at hread
          obtain ⟨rfl, hrest⟩ := ih hread.2
          exact ⟨by rw [hread.1], hrest⟩

theorem quoted_cancel {x y : String} {s t : List Char}
    (h : quoted x ++ s = quoted y ++ t) : x = y ∧ s = t := by
  have hbody : x.toList.flatMap escape ++ '"' :: s = y.toList.flatMap escape ++ '"' :: t := by
    simpa [quoted] using h
  obtain ⟨htext, hrest⟩ := body_cancel hbody
  exact ⟨String.toList_inj.mp htext, hrest⟩

/-- What may stand behind a printed value: nothing that continues a number. -/
def Ends (rest : List Char) : Prop := ∀ c ∈ rest.head?, c.isDigit = false

theorem ends_cons {c : Char} {rest : List Char} (h : c.isDigit = false) : Ends (c :: rest) := by
  simpa [Ends] using h

theorem digits_cancel {m n : Nat} {s t : List Char} (hs : Ends s) (ht : Ends t)
    (h : Nat.toDigits 10 m ++ s = Nat.toDigits 10 n ++ t) : m = n ∧ s = t := by
  have hdigits (n : Nat) : ∀ c ∈ Nat.toDigits 10 n, c.isDigit = true :=
    fun c hc => Nat.isDigit_of_mem_toDigits (by decide) (by decide) hc
  obtain ⟨hsame, hrest⟩ := append_cancel (p := fun c : Char => c.isDigit = true)
    (hdigits m) (hdigits n) (by simpa [Ends] using hs) (by simpa [Ends] using ht) h
  refine ⟨?_, hrest⟩
  rw [← Nat.ofDigitChars_ten_toDigits (n := m), hsame, Nat.ofDigitChars_ten_toDigits]

theorem head_toDigits (n : Nat) (rest : List Char) :
    ∃ c, (Nat.toDigits 10 n ++ rest).head? = some c ∧ c.isDigit = true := by
  cases hdigits : Nat.toDigits 10 n with
  | nil => exact absurd hdigits Nat.toDigits_ne_nil
  | cons c digits =>
      refine ⟨c, rfl, Nat.isDigit_of_mem_toDigits (b := 10) (n := n) (by decide) (by decide) ?_⟩
      rw [hdigits]
      exact List.mem_cons_self

theorem decimal_cancel {i j : Int} {s t : List Char} (hs : Ends s) (ht : Ends t)
    (h : decimal i ++ s = decimal j ++ t) : i = j ∧ s = t := by
  have hsign (n : Nat) (rest tail : List Char) :
      Nat.toDigits 10 n ++ rest ≠ '-' :: tail := by
    intro heq
    obtain ⟨c, hc, hdigit⟩ := head_toDigits n rest
    rw [heq, List.head?_cons, Option.some.injEq] at hc
    exact absurd hdigit (by rw [← hc]; decide)
  rw [decimal, decimal] at h
  split_ifs at h with hi hj hj
  · obtain ⟨hsame, hrest⟩ := digits_cancel hs ht (List.tail_eq_of_cons_eq h)
    exact ⟨by omega, hrest⟩
  · exact absurd h.symm (hsign _ _ _)
  · exact absurd h (hsign _ _ _)
  · obtain ⟨hsame, hrest⟩ := digits_cancel hs ht h
    exact ⟨by omega, hrest⟩

end Reading

section Injectivity

inductive Kind where
  | null
  | bool
  | int
  | string
  | array
  | object
  deriving DecidableEq

def Value.kind : Value → Kind
  | .null => .null
  | .bool _ => .bool
  | .int _ => .int
  | .string _ => .string
  | .array _ => .array
  | .object _ => .object

def kindOf (c : Char) : Kind :=
  if c = 'n' then .null
  else if c = 't' ∨ c = 'f' then .bool
  else if c = '"' then .string
  else if c = '[' then .array
  else if c = '\x7b' then .object
  else .int

theorem kindOf_of_isDigit {c : Char} (h : c.isDigit = true) : kindOf c = .int := by
  have hne (d : Char) (hd : d.isDigit = false) : c ≠ d := by
    rintro rfl
    simp [h] at hd
  simp [kindOf, hne 'n' rfl, hne 't' rfl, hne 'f' rfl, hne '"' rfl, hne '[' rfl,
    hne '\x7b' rfl]

theorem head_decimal (i : Int) (rest : List Char) :
    ∃ c, (decimal i ++ rest).head? = some c ∧ (c = '-' ∨ c.isDigit = true) := by
  rw [decimal]
  split
  · exact ⟨'-', rfl, Or.inl rfl⟩
  · obtain ⟨c, hc, hdigit⟩ := head_toDigits i.natAbs rest
    exact ⟨c, hc, Or.inr hdigit⟩

theorem head_write (value : Value) (rest : List Char) :
    ∃ c, (write value ++ rest).head? = some c ∧ kindOf c = value.kind ∧
      c ≠ ']' ∧ c ≠ ',' := by
  cases value with
  | null => exact ⟨'n', rfl, rfl, by decide, by decide⟩
  | bool value =>
      cases value
      · exact ⟨'f', rfl, rfl, by decide, by decide⟩
      · exact ⟨'t', rfl, rfl, by decide, by decide⟩
  | int i =>
      obtain ⟨c, hc, hkind⟩ := head_decimal i rest
      refine ⟨c, hc, ?_⟩
      rcases hkind with rfl | hdigit
      · exact ⟨rfl, by decide, by decide⟩
      · refine ⟨kindOf_of_isDigit hdigit, ?_, ?_⟩ <;> (rintro rfl; cases hdigit)
  | string text => exact ⟨'"', rfl, rfl, by decide, by decide⟩
  | array items => exact ⟨'[', rfl, rfl, by decide, by decide⟩
  | object members => exact ⟨'\x7b', rfl, rfl, by decide, by decide⟩

theorem kind_eq_of_write {v w : Value} {s t : List Char}
    (h : write v ++ s = write w ++ t) : v.kind = w.kind := by
  obtain ⟨c, hc, hkind, -⟩ := head_write v s
  obtain ⟨d, hd, hkind', -⟩ := head_write w t
  rw [h, hd, Option.some.injEq] at hc
  rw [← hkind, ← hkind', hc]

variable {α : Type} {print : α → List Char}

/-- The text of `a`, with anything behind it that ends it, spells `a` only. -/
def Determined (print : α → List Char) (a : α) : Prop :=
  ∀ b s t, Ends s → Ends t → print a ++ s = print b ++ t → a = b ∧ s = t

theorem ends_frame (elements : List (List Char)) {close : Char} (hclose : close.isDigit = false)
    (rest : List Char) : Ends (frame ',' elements ++ close :: rest) := by
  cases elements with
  | nil => exact ends_cons hclose
  | cons first elements => exact ends_cons rfl

theorem frame_cancel {close : Char} (hclose : close.isDigit = false) (hcomma : close ≠ ',')
    {as bs : List α} (has : ∀ a ∈ as, Determined print a) {s t : List Char}
    (h : frame ',' (as.map print) ++ close :: s = frame ',' (bs.map print) ++ close :: t) :
    as = bs ∧ s = t := by
  induction as generalizing bs with
  | nil =>
      cases bs with
      | nil => exact ⟨rfl, by simpa [frame] using h⟩
      | cons b bs =>
          have hhead : close = ',' := by simpa [frame] using congrArg List.head? h
          exact absurd hhead hcomma
  | cons a as ih =>
      cases bs with
      | nil =>
          have hhead : close = ',' := by simpa [frame] using (congrArg List.head? h).symm
          exact absurd hhead hcomma
      | cons b bs =>
          have hnext : print a ++ (frame ',' (as.map print) ++ close :: s) =
              print b ++ (frame ',' (bs.map print) ++ close :: t) := by
            simpa [frame] using h
          obtain ⟨rfl, hrest⟩ := has a List.mem_cons_self b _ _
            (ends_frame _ hclose _) (ends_frame _ hclose _) hnext
          obtain ⟨rfl, hst⟩ := ih (fun a' ha' => has a' (List.mem_cons_of_mem _ ha')) hrest
          exact ⟨rfl, hst⟩

theorem commas_cancel {close : Char} (hclose : close.isDigit = false) (hcomma : close ≠ ',')
    (hopen : ∀ (a : α) (rest : List Char), (print a ++ rest).head? ≠ some close)
    {as bs : List α} (has : ∀ a ∈ as, Determined print a) {s t : List Char}
    (h : commas (as.map print) ++ close :: s = commas (bs.map print) ++ close :: t) :
    as = bs ∧ s = t := by
  cases as with
  | nil =>
      cases bs with
      | nil => exact ⟨rfl, by simpa [commas] using h⟩
      | cons b bs =>
          have hhead := congrArg List.head? h.symm
          rw [List.map_cons, commas, List.append_assoc] at hhead
          exact absurd hhead (hopen b _)
  | cons a as =>
      cases bs with
      | nil =>
          have hhead := congrArg List.head? h
          rw [List.map_cons, commas, List.append_assoc] at hhead
          exact absurd hhead (hopen a _)
      | cons b bs =>
          simp only [List.map_cons, commas, List.append_assoc] at h
          obtain ⟨rfl, hrest⟩ := has a List.mem_cons_self b _ _
            (ends_frame _ hclose _) (ends_frame _ hclose _) h
          obtain ⟨rfl, hst⟩ := frame_cancel hclose hcomma
            (fun a' ha' => has a' (List.mem_cons_of_mem _ ha')) hrest
          exact ⟨rfl, hst⟩

theorem determined_member {m : String × Value} (h : Determined write m.2) :
    Determined writeMember m := by
  rintro ⟨key, value⟩ s t hs ht heq
  simp only [writeMember, member, List.append_assoc, List.cons_append] at heq
  obtain ⟨hkey, hrest⟩ := quoted_cancel heq
  obtain ⟨hvalue, hst⟩ := h value s t hs ht (List.tail_eq_of_cons_eq hrest)
  exact ⟨Prod.ext hkey hvalue, hst⟩

theorem determined_write (v : Value) : Determined write v := by
  induction v using Value.induct with
  | null =>
      intro w s t _ _ h
      have hkind := kind_eq_of_write h
      cases w <;> cases hkind
      exact ⟨rfl, List.append_cancel_left h⟩
  | bool value =>
      intro w s t _ _ h
      have hkind := kind_eq_of_write h
      cases w with
      | bool value' =>
          cases value <;> cases value' <;> simp_all [write]
      | _ => cases hkind
  | int i =>
      intro w s t hs ht h
      have hkind := kind_eq_of_write h
      cases w with
      | int j =>
          obtain ⟨rfl, hst⟩ := decimal_cancel hs ht h
          exact ⟨rfl, hst⟩
      | _ => cases hkind
  | string text =>
      intro w s t _ _ h
      have hkind := kind_eq_of_write h
      cases w with
      | string text' =>
          obtain ⟨rfl, hst⟩ := quoted_cancel h
          exact ⟨rfl, hst⟩
      | _ => cases hkind
  | array items ih =>
      intro w s t _ _ h
      have hkind := kind_eq_of_write h
      cases w with
      | array items' =>
          simp only [write, writeItems_eq, List.cons_append, List.append_assoc,
            List.nil_append, List.cons.injEq, true_and] at h
          have hopen (v : Value) (rest : List Char) : (write v ++ rest).head? ≠ some ']' := by
            obtain ⟨c, hc, -, hne, -⟩ := head_write v rest
            rw [hc]
            simpa using hne
          obtain ⟨rfl, hst⟩ := commas_cancel rfl (by decide) hopen ih h
          exact ⟨rfl, hst⟩
      | _ => cases hkind
  | object members ih =>
      intro w s t _ _ h
      have hkind := kind_eq_of_write h
      cases w with
      | object members' =>
          simp only [write, writeMembers_eq, List.cons_append, List.append_assoc,
            List.nil_append, List.cons.injEq, true_and] at h
          have hopen (m : String × Value) (rest : List Char) :
              (writeMember m ++ rest).head? ≠ some '\x7d' := by
            simp [writeMember, member, quoted]
          obtain ⟨rfl, hst⟩ := commas_cancel rfl (by decide) hopen
            (fun m hm => determined_member (ih m hm)) h
          exact ⟨rfl, hst⟩
      | _ => cases hkind

theorem write_injective {v w : Value} (h : write v = write w) : v = w := by
  refine (determined_write v w [] [] (by simp [Ends]) (by simp [Ends]) ?_).1
  rw [h]

end Injectivity

section NormalForm

instance : Std.Total keyLe := ⟨fun a b => Std.Total.total (r := BytesLe) a.1 b.1⟩

instance : IsTrans (String × Value) keyLe :=
  ⟨fun a b c => IsTrans.trans (r := BytesLe) a.1 b.1 c.1⟩

/-- With distinct keys, sorting by key forgets the order of members only. -/
theorem sort_eq_iff_perm {a b : List (String × Value)} (ha : (a.map Prod.fst).Nodup) :
    a.insertionSort keyLe = b.insertionSort keyLe ↔ a.Perm b := by
  constructor
  · exact perm_of_insertionSort_eq
  · intro h
    apply insertionSort_eq_of_perm h
    intro x hx y hy hxy hyx
    exact List.inj_on_of_nodup_map ha hx hy (BytesLe.antisymm hxy hyx)

/-- That sorting tells `v` apart from exactly what differs by more than order. -/
def SortedIff (v : Value) : Prop :=
  ∀ w, DistinctKeys w → (sorted v = sorted w ↔ Same v w)

theorem map_sorted_eq_iff {items items' : List Value} (hitems : ∀ v ∈ items, SortedIff v)
    (hdistinct : ∀ w ∈ items', DistinctKeys w) :
    items.map sorted = items'.map sorted ↔ SameItems items items' := by
  induction items generalizing items' with
  | nil => simp [SameItems, eq_comm]
  | cons item items ih =>
      cases items' with
      | nil => simp [SameItems]
      | cons item' items' =>
          have hhead := hitems item List.mem_cons_self item' (hdistinct _ List.mem_cons_self)
          have hrest := ih (fun v hv => hitems v (List.mem_cons_of_mem _ hv))
            (fun w hw => hdistinct w (List.mem_cons_of_mem _ hw))
          simp only [List.map_cons, List.cons.injEq, hhead, hrest, SameItems]
          constructor
          · rintro ⟨hsame, hitems'⟩
            exact ⟨item', items', ⟨rfl, rfl⟩, hsame, hitems'⟩
          · rintro ⟨_, _, ⟨rfl, rfl⟩, hsame, hitems'⟩
            exact ⟨hsame, hitems'⟩

theorem map_sortedMember_perm_iff {members members' : List (String × Value)}
    (hmembers : ∀ m ∈ members, SortedIff m.2)
    (hdistinct : ∀ m ∈ members', DistinctKeys m.2) :
    (members.map sortedMember).Perm (members'.map sortedMember) ↔
      SameMembers members members' := by
  induction members generalizing members' with
  | nil => simp [SameMembers]
  | cons m members ih =>
      obtain ⟨key, value⟩ := m
      have hvalue := hmembers (key, value) List.mem_cons_self
      have hrest {front back : List (String × Value)} {value' : Value}
          (hsplit : members' = front ++ (key, value') :: back) :=
        @ih (front ++ back) (fun m hm => hmembers m (List.mem_cons_of_mem _ hm))
          (fun m hm => hdistinct m (by
            rw [hsplit]
            rcases List.mem_append.mp hm with hfront | hback
            · exact List.mem_append_left _ hfront
            · exact List.mem_append_right _ (List.mem_cons_of_mem _ hback)))
      simp only [SameMembers]
      constructor
      · intro h
        obtain ⟨⟨key', value'⟩, hmem, heq⟩ :=
          List.mem_map.mp (h.mem_iff.mp (List.mem_cons_self (a := sortedMember (key, value))))
        obtain ⟨rfl, hsorted⟩ : key' = key ∧ sorted value' = sorted value := Prod.mk.inj heq
        obtain ⟨front, back, hsplit⟩ := List.mem_iff_append.mp hmem
        refine ⟨front, value', back, hsplit,
          (hvalue value' (hdistinct _ hmem)).mp hsorted.symm, (hrest hsplit).mp ?_⟩
        rw [hsplit, List.map_append, List.map_cons, List.map_cons, heq] at h
        rw [List.map_append]
        exact (h.trans List.perm_middle).cons_inv
      · rintro ⟨front, value', back, rfl, hsame, hmembers'⟩
        have hmem : (key, value') ∈ front ++ (key, value') :: back := by simp
        have heq : sortedMember (key, value) = sortedMember (key, value') :=
          Prod.ext rfl ((hvalue value' (hdistinct _ hmem)).mpr hsame)
        have hperm := (hrest rfl).mpr hmembers'
        rw [List.map_append] at hperm
        rw [List.map_cons, List.map_append, List.map_cons, heq]
        exact (hperm.cons _).trans List.perm_middle.symm

/-- Two values have one sorted form when they are the same up to the order of
object keys, and only then. -/
theorem sorted_eq_iff {v w : Value} (hv : DistinctKeys v) (hw : DistinctKeys w) :
    sorted v = sorted w ↔ Same v w := by
  induction v using Value.induct generalizing w with
  | null => cases w <;> simp [sorted, Same]
  | bool value => cases w <;> simp [sorted, Same]
  | int i => cases w <;> simp [sorted, Same]
  | string text => cases w <;> simp [sorted, Same]
  | array items ih =>
      cases w with
      | array items' =>
          simp only [DistinctKeys, distinctItems_iff] at hv hw
          simp only [sorted, sortedItems_eq, Value.array.injEq, Same]
          exact map_sorted_eq_iff (fun v hmem w hw => ih v hmem (hv v hmem) hw) hw
      | _ => simp [sorted, Same]
  | object members ih =>
      cases w with
      | object members' =>
          simp only [DistinctKeys, distinctMembers_iff] at hv hw
          have hkeys : ((members.map sortedMember).map Prod.fst).Nodup := by
            simpa [List.map_map, Function.comp_def, sortedMember] using hv.1
          simp only [sorted, sortedMembers_eq, Value.object.injEq, Same]
          rw [sort_eq_iff_perm hkeys]
          exact map_sortedMember_perm_iff (fun m hmem w hw => ih m hmem (hv.2 m hmem) hw) hw.2
      | _ => simp [sorted, Same]

end NormalForm

end Library.JsonText
