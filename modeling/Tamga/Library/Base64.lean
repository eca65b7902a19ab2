import Mathlib.Data.List.Basic
import Mathlib.Tactic.FinCases

namespace Library.Base64

/-- The 64 symbols, in the order of the values they stand for. -/
def alphabet : List Char :=
  "ABCDEFGHIJKLMNOPQRSTUVWXYZabcdefghijklmnopqrstuvwxyz0123456789+/".toList

def symbol (value : Nat) : Char :=
  alphabet.getD value '='

def value? (c : Char) : Option Nat :=
  alphabet.idxOf? c

def encodeList : List UInt8 → List Char
  | [] => []
  | [a] => [symbol (a.toNat / 4), symbol (a.toNat % 4 * 16), '=', '=']
  | [a, b] =>
      [symbol (a.toNat / 4), symbol (a.toNat % 4 * 16 + b.toNat / 16),
        symbol (b.toNat % 16 * 4), '=']
  | a :: b :: c :: rest =>
      symbol (a.toNat / 4) :: symbol (a.toNat % 4 * 16 + b.toNat / 16) ::
        symbol (b.toNat % 16 * 4 + c.toNat / 64) :: symbol (c.toNat % 64) ::
          encodeList rest

/-- The octets of one group of four symbols.  Only a last group may be padded. -/
def decodeGroup (w x y z : Char) (last : Bool) : Option (List UInt8) := do
  let first ← value? w
  let second ← value? x
  match value? y, value? z with
  | some third, some fourth =>
      some [.ofNat (first * 4 + second / 16),
        .ofNat (second % 16 * 16 + third / 4), .ofNat (third % 4 * 64 + fourth)]
  | some third, none =>
      if last && z == '=' && third % 4 == 0 then
        some [.ofNat (first * 4 + second / 16), .ofNat (second % 16 * 16 + third / 4)]
      else none
  | none, _ =>
      if last && y == '=' && z == '=' && second % 16 == 0 then
        some [.ofNat (first * 4 + second / 16)]
      else none

def decodeList : List Char → Option (List UInt8)
  | [] => some []
  | w :: x :: y :: z :: rest => do
      let group ← decodeGroup w x y z rest.isEmpty
      let tail ← decodeList rest
      return group ++ tail
  | _ => none

def encode (bytes : List UInt8) : String :=
  String.ofList (encodeList bytes)

def decode (text : String) : Option (List UInt8) :=
  decodeList text.toList

theorem symbol_value {c : Char} {n : Nat} (h : value? c = some n) : symbol n = c := by
  obtain ⟨hn, hc, -⟩ := List.idxOf?_eq_some_iff.mp h
  rw [symbol, List.getD_eq_getElem?_getD, List.getElem?_eq_getElem hn]
  simpa using hc

theorem value_lt {c : Char} {n : Nat} (h : value? c = some n) : n < 64 := by
  obtain ⟨hn, -⟩ := List.idxOf?_eq_some_iff.mp h
  exact hn

theorem value_symbol {n : Nat} (h : n < 64) : value? (symbol n) = some n := by
  have hall : ∀ i : Fin 64, value? (symbol i) = some i.val := by decide +kernel
  exact hall ⟨n, h⟩

@[simp] theorem value_pad : value? '=' = none := by decide +kernel

theorem ofNat_toNat_eq {a : UInt8} {n : Nat} (h : n = a.toNat) : UInt8.ofNat n = a := by
  rw [h, UInt8.ofNat_toNat]

theorem decodeGroup_three (a b c : UInt8) (last : Bool) :
    decodeGroup (symbol (a.toNat / 4)) (symbol (a.toNat % 4 * 16 + b.toNat / 16))
      (symbol (b.toNat % 16 * 4 + c.toNat / 64)) (symbol (c.toNat % 64)) last =
        some [a, b, c] := by
  have ha := a.toNat_lt
  have hb := b.toNat_lt
  have hc := c.toNat_lt
  simp only [decodeGroup, value_symbol (show a.toNat / 4 < 64 by omega),
    value_symbol (show a.toNat % 4 * 16 + b.toNat / 16 < 64 by omega),
    value_symbol (show b.toNat % 16 * 4 + c.toNat / 64 < 64 by omega),
    value_symbol (show c.toNat % 64 < 64 by omega), Option.bind_eq_bind,
    Option.bind_some, Option.some.injEq, List.cons.injEq, and_true]
  exact ⟨ofNat_toNat_eq (by omega), ofNat_toNat_eq (by omega), ofNat_toNat_eq (by omega)⟩

theorem decodeGroup_two (a b : UInt8) :
    decodeGroup (symbol (a.toNat / 4)) (symbol (a.toNat % 4 * 16 + b.toNat / 16))
      (symbol (b.toNat % 16 * 4)) '=' true = some [a, b] := by
  have ha := a.toNat_lt
  have hb := b.toNat_lt
  have hpad : b.toNat % 16 * 4 % 4 = 0 := by omega
  simp only [decodeGroup, value_symbol (show a.toNat / 4 < 64 by omega),
    value_symbol (show a.toNat % 4 * 16 + b.toNat / 16 < 64 by omega),
    value_symbol (show b.toNat % 16 * 4 < 64 by omega), value_pad, hpad,
    Option.bind_eq_bind, Option.bind_some, Bool.true_and, BEq.rfl, if_true,
    Option.some.injEq, List.cons.injEq, and_true]
  exact ⟨ofNat_toNat_eq (by omega), ofNat_toNat_eq (by omega)⟩

theorem decodeGroup_one (a : UInt8) :
    decodeGroup (symbol (a.toNat / 4)) (symbol (a.toNat % 4 * 16)) '=' '=' true =
      some [a] := by
  have ha := a.toNat_lt
  have hpad : a.toNat % 4 * 16 % 16 = 0 := by omega
  simp only [decodeGroup, value_symbol (show a.toNat / 4 < 64 by omega),
    value_symbol (show a.toNat % 4 * 16 < 64 by omega), value_pad, hpad,
    Option.bind_eq_bind, Option.bind_some, Bool.true_and, BEq.rfl, if_true,
    Option.some.injEq, List.cons.injEq, and_true]
  exact ofNat_toNat_eq (by omega)

theorem decodeList_encodeList (bytes : List UInt8) :
    decodeList (encodeList bytes) = some bytes := by
  induction bytes using encodeList.induct with
  | case1 => rfl
  | case2 a =>
      simp only [encodeList, decodeList, List.isEmpty_nil, decodeGroup_one]
      rfl
  | case3 a b =>
      simp only [encodeList, decodeList, List.isEmpty_nil, decodeGroup_two]
      rfl
  | case4 a b c rest ih =>
      simp only [encodeList, decodeList, decodeGroup_three, ih]
      rfl

theorem decode_encode (bytes : List UInt8) : decode (encode bytes) = some bytes := by
  rw [decode, encode, String.toList_ofList, decodeList_encodeList]

/-- A decoded group is the encoding of its octets, and only the last group can
be a short one. -/
theorem encodeList_of_decodeGroup {w x y z : Char} {last : Bool} {group : List UInt8}
    (h : decodeGroup w x y z last = some group) :
    encodeList group = [w, x, y, z] ∧ (last = false → group.length = 3) := by
  simp only [decodeGroup, Option.bind_eq_bind, Option.bind_eq_some_iff] at h
  obtain ⟨first, hw, second, hx, h⟩ := h
  have hfirst := value_lt hw
  have hsecond := value_lt hx
  split at h
  · rename_i third fourth hy hz
    have hthird := value_lt hy
    have hfourth := value_lt hz
    obtain rfl := Option.some.inj h
    refine ⟨?_, fun _ => rfl⟩
    simp only [encodeList, UInt8.toNat_ofNat', List.cons.injEq, and_true]
    refine ⟨?_, ?_, ?_, ?_⟩
    · rw [← symbol_value hw]; congr 1; omega
    · rw [← symbol_value hx]; congr 1; omega
    · rw [← symbol_value hy]; congr 1; omega
    · rw [← symbol_value hz]; congr 1; omega
  · rename_i third hy hz
    have hthird := value_lt hy
    split at h
    · rename_i hpad
      simp only [Bool.and_eq_true, beq_iff_eq] at hpad
      obtain ⟨⟨rfl, rfl⟩, hbits⟩ := hpad
      obtain rfl := Option.some.inj h
      refine ⟨?_, by simp⟩
      simp only [encodeList, UInt8.toNat_ofNat', List.cons.injEq, and_true]
      refine ⟨?_, ?_, ?_⟩
      · rw [← symbol_value hw]; congr 1; omega
      · rw [← symbol_value hx]; congr 1; omega
      · rw [← symbol_value hy]; congr 1; omega
    · cases h
  · split at h
    · rename_i hpad
      simp only [Bool.and_eq_true, beq_iff_eq] at hpad
      obtain ⟨⟨⟨rfl, rfl⟩, rfl⟩, hbits⟩ := hpad
      obtain rfl := Option.some.inj h
      refine ⟨?_, by simp⟩
      simp only [encodeList, UInt8.toNat_ofNat', List.cons.injEq, and_true]
      refine ⟨?_, ?_⟩
      · rw [← symbol_value hw]; congr 1; omega
      · rw [← symbol_value hx]; congr 1; omega
    · cases h

theorem encodeList_append {group : List UInt8} (h : group.length = 3)
    (rest : List UInt8) : encodeList (group ++ rest) = encodeList group ++ encodeList rest := by
  match group, h with
  | [a, b, c], _ => rfl

theorem encodeList_of_decodeList {cs : List Char} {bytes : List UInt8}
    (h : decodeList cs = some bytes) : encodeList bytes = cs := by
  induction cs using decodeList.induct generalizing bytes with
  | case1 =>
      obtain rfl : [] = bytes := by simpa [decodeList] using h
      rfl
  | case2 w x y z rest ih =>
      simp only [decodeList, Option.bind_eq_bind, Option.bind_eq_some_iff,
        Option.pure_def, Option.some.injEq] at h
      obtain ⟨group, hgroup, tail, htail, rfl⟩ := h
      obtain ⟨hsymbols, hlength⟩ := encodeList_of_decodeGroup hgroup
      cases rest with
      | nil =>
          obtain rfl : [] = tail := by simpa [decodeList] using htail
          simpa using hsymbols
      | cons next rest =>
          rw [encodeList_append (hlength rfl), hsymbols, ih htail]
          rfl
  | case3 cs hnil hgroup => simp [decodeList] at h

theorem encode_of_decode {text : String} {bytes : List UInt8}
    (h : decode text = some bytes) : encode bytes = text := by
  rw [encode, encodeList_of_decodeList h, String.ofList_toList]

theorem symbol_mem (n : Nat) : symbol n ∈ '=' :: alphabet := by
  rw [symbol, List.getD_eq_getElem?_getD]
  cases hn : alphabet[n]? with
  | none => simp
  | some c => simpa using Or.inr (List.mem_of_getElem? hn)

theorem mem_encodeList {bytes : List UInt8} {c : Char} (h : c ∈ encodeList bytes) :
    c ∈ '=' :: alphabet := by
  induction bytes using encodeList.induct with
  | case1 => simp [encodeList] at h
  | case2 a =>
      simp only [encodeList, List.mem_cons, List.not_mem_nil, or_false] at h
      rcases h with rfl | rfl | rfl | rfl
      all_goals first | exact symbol_mem _ | simp
  | case3 a b =>
      simp only [encodeList, List.mem_cons, List.not_mem_nil, or_false] at h
      rcases h with rfl | rfl | rfl | rfl
      all_goals first | exact symbol_mem _ | simp
  | case4 a b c rest ih =>
      simp only [encodeList, List.mem_cons] at h
      rcases h with rfl | rfl | rfl | rfl | h
      all_goals first | exact symbol_mem _ | exact ih h

theorem mem_encode {bytes : List UInt8} {c : Char} (h : c ∈ (encode bytes).toList) :
    c ∈ '=' :: alphabet := by
  rw [encode, String.toList_ofList] at h
  exact mem_encodeList h

end Library.Base64
