import Mathlib.Data.List.DropRight

/-!
String operations of the Rust standard library, on the scalar values of a
string.  A Lean `Char` is a Unicode scalar value, so a `String` here is exactly
a `&str`.
-/

namespace Library.Text

/-- The Unicode `White_Space` property, the set `char::is_whitespace` tests. -/
def isWhitespace (c : Char) : Bool :=
  let n := c.toNat
  (9 ≤ n && n ≤ 13) || n == 0x20 || n == 0x85 || n == 0xA0 || n == 0x1680 ||
    (0x2000 ≤ n && n ≤ 0x200A) || n == 0x2028 || n == 0x2029 || n == 0x202F ||
    n == 0x205F || n == 0x3000

def Blank (s : String) : Prop := ∀ c ∈ s.toList, isWhitespace c = true

instance (s : String) : Decidable (Blank s) :=
  decidable_of_iff (s.toList.all isWhitespace = true) List.all_eq_true

/-- `str::trim`. -/
def trim (s : String) : String :=
  String.ofList ((s.toList.dropWhile isWhitespace).rdropWhile isWhitespace)

/-- `str::trim_matches` on a predicate. -/
def trimMatches (matcher : Char → Bool) (s : String) : String :=
  String.ofList ((s.toList.dropWhile matcher).rdropWhile matcher)

/-- `str::trim_end_matches` on a predicate. -/
def trimEndMatches (matcher : Char → Bool) (s : String) : String :=
  String.ofList (s.toList.rdropWhile matcher)

/-- `char::is_ascii_graphic`. -/
def isAsciiGraphic (c : Char) : Bool := 0x21 ≤ c.toNat && c.toNat ≤ 0x7E

/-- `char::is_ascii_control`. -/
def isAsciiControl (c : Char) : Bool := c.toNat ≤ 0x1F || c.toNat == 0x7F

/-- `str::strip_prefix`. -/
def stripPrefix (s pattern : String) : Option String :=
  (s.toList.dropPrefix? pattern.toList).map String.ofList

/-- `str::strip_suffix`. -/
def stripSuffix (s pattern : String) : Option String :=
  (s.toList.dropSuffix? pattern.toList).map String.ofList

/-- `str::eq_ignore_ascii_case`.  `Char.toLower` leaves everything but the
ASCII capitals alone. -/
def eqIgnoreAsciiCase (a b : String) : Bool :=
  a.toList.map Char.toLower == b.toList.map Char.toLower

def lowerHex (byte : UInt8) : List Char :=
  (Nat.toDigits 16 byte.toNat).leftpad 2 '0'

/-- `str::ends_with`. -/
def endsWith (s suffix : String) : Bool :=
  suffix.toList.reverse.isPrefixOf s.toList.reverse

theorem endsWith_append (s suffix : String) : endsWith (s ++ suffix) suffix = true := by
  rw [endsWith, List.isPrefixOf_iff_prefix, String.toList_append, List.reverse_append]
  exact List.prefix_append _ _

theorem toString_natCast_inj {m n : Nat} (h : toString (m : Int) = toString (n : Int)) :
    m = n := by
  have hrepr : Nat.repr m = Nat.repr n := h
  have hdigits := congrArg String.toList hrepr
  simp only [Nat.repr, String.toList_ofList] at hdigits
  rw [← Nat.ofDigitChars_ten_toDigits (n := m), hdigits, Nat.ofDigitChars_ten_toDigits]

/-- `str::parse::<u64>`. -/
def parseU64 (s : String) : Option UInt64 :=
  let digits :=
    match s.toList with
    | '+' :: rest => rest
    | cs => cs
  if digits ≠ [] ∧ digits.all Char.isDigit then
    let value := Nat.ofDigitChars 10 digits 0
    if value < 18446744073709551616 then some (UInt64.ofNat value) else none
  else none

/-- Cut a list at the first occurrence of a delimiter, which is dropped. -/
def cutFirst (delimiter : Char) : List Char → Option (List Char × List Char)
  | [] => none
  | c :: rest =>
      if c = delimiter then some ([], rest)
      else (cutFirst delimiter rest).map fun cut => (c :: cut.1, cut.2)

/-- `str::split_once` on a character. -/
def splitOnce (s : String) (delimiter : Char) : Option (String × String) :=
  (cutFirst delimiter s.toList).map fun cut =>
    (String.ofList cut.1, String.ofList cut.2)

/-- `str::rsplit_once` on a character. -/
def rsplitOnce (s : String) (delimiter : Char) : Option (String × String) :=
  (cutFirst delimiter s.toList.reverse).map fun cut =>
    (String.ofList cut.2.reverse, String.ofList cut.1.reverse)

/-- The `Debug` form of one character of a string: what cannot be printed, and
what would attach to the character before it, is written as a code point. -/
def escapeDebug (isGraphemeExtended isPrintable : Char → Bool) (c : Char) : String :=
  match c with
  | '\x00' => "\\0"
  | '\t' => "\\t"
  | '\r' => "\\r"
  | '\n' => "\\n"
  | '\\' => "\\\\"
  | '"' => "\\\""
  | c =>
      if isGraphemeExtended c || !isPrintable c then
        "\\u\x7b" ++ String.ofList (Nat.toDigits 16 c.toNat) ++ "\x7d"
      else c.toString

def debug (isGraphemeExtended isPrintable : Char → Bool) (s : String) : String :=
  "\"" ++ String.join (s.toList.map (escapeDebug isGraphemeExtended isPrintable)) ++ "\""

theorem stripPrefix_eq_some_iff {s pattern rest : String} :
    stripPrefix s pattern = some rest ↔ s = pattern ++ rest := by
  simp only [stripPrefix, Option.map_eq_some_iff, List.dropPrefix?_eq_some_iff,
    beq_iff_eq]
  constructor
  · rintro ⟨tail, ⟨_, hs, rfl⟩, rfl⟩
    rw [← String.toList_inj, hs, String.toList_append, String.toList_ofList]
  · rintro rfl
    exact ⟨rest.toList, ⟨pattern.toList, String.toList_append, rfl⟩,
      String.ofList_toList⟩

/-- A string that starts otherwise does not have the prefix. -/
theorem stripPrefix_append_of_not {front pattern : String} (rest : String)
    (h : ¬front.toList <+: pattern.toList) (h' : ¬pattern.toList <+: front.toList) :
    stripPrefix (front ++ rest) pattern = none := by
  rw [Option.eq_none_iff_forall_ne_some]
  intro tail hsome
  have hchars := congrArg String.toList (stripPrefix_eq_some_iff.mp hsome)
  rw [String.toList_append, String.toList_append] at hchars
  have hfront : front.toList <+: pattern.toList ++ tail.toList := hchars ▸ List.prefix_append _ _
  rcases List.prefix_or_prefix_of_prefix hfront (List.prefix_append _ _) with hle | hle
  · exact h hle
  · exact h' hle

theorem stripSuffix_eq_some_iff {s pattern rest : String} :
    stripSuffix s pattern = some rest ↔ s = rest ++ pattern := by
  simp only [stripSuffix, Option.map_eq_some_iff, List.dropSuffix?_eq_some_iff,
    beq_iff_eq]
  constructor
  · rintro ⟨front, ⟨_, hs, rfl⟩, rfl⟩
    rw [← String.toList_inj, hs, String.toList_append, String.toList_ofList]
  · rintro rfl
    exact ⟨rest.toList, ⟨pattern.toList, String.toList_append, rfl⟩,
      String.ofList_toList⟩

theorem cutFirst_eq_some_iff {delimiter : Char} {cs before after : List Char} :
    cutFirst delimiter cs = some (before, after) ↔
      cs = before ++ delimiter :: after ∧ delimiter ∉ before := by
  induction cs generalizing before with
  | nil => simp [cutFirst]
  | cons c rest ih =>
      by_cases hc : c = delimiter
      · subst c
        cases before with
        | nil => simp [cutFirst, eq_comm]
        | cons b before => simp +contextual [cutFirst]
      · cases before with
        | nil => simp [cutFirst, hc]
        | cons b before =>
            simp only [cutFirst, if_neg hc, Option.map_eq_some_iff, Prod.exists,
              Prod.mk.injEq, List.cons.injEq, List.cons_append, List.mem_cons, not_or]
            constructor
            · rintro ⟨front, tail, hcut, ⟨rfl, rfl⟩, rfl⟩
              obtain ⟨hrest, hfront⟩ := ih.mp hcut
              exact ⟨⟨rfl, hrest⟩, Ne.symm hc, hfront⟩
            · rintro ⟨⟨rfl, hrest⟩, -, hfront⟩
              exact ⟨before, after, ih.mpr ⟨hrest, hfront⟩, ⟨rfl, rfl⟩, rfl⟩

theorem splitOnce_eq_some_iff {s before after : String} {delimiter : Char} :
    splitOnce s delimiter = some (before, after) ↔
      s.toList = before.toList ++ delimiter :: after.toList ∧
        delimiter ∉ before.toList := by
  simp only [splitOnce, Option.map_eq_some_iff, Prod.exists, Prod.mk.injEq,
    cutFirst_eq_some_iff]
  constructor
  · rintro ⟨front, tail, hcut, rfl, rfl⟩
    simpa using hcut
  · intro hcut
    exact ⟨before.toList, after.toList, hcut, String.ofList_toList,
      String.ofList_toList⟩

theorem rsplitOnce_eq_some_iff {s before after : String} {delimiter : Char} :
    rsplitOnce s delimiter = some (before, after) ↔
      s.toList = before.toList ++ delimiter :: after.toList ∧
        delimiter ∉ after.toList := by
  simp only [rsplitOnce, Option.map_eq_some_iff, Prod.exists, Prod.mk.injEq,
    cutFirst_eq_some_iff, List.reverse_eq_iff]
  constructor
  · rintro ⟨front, tail, hcut, rfl, rfl⟩
    simpa using hcut
  · intro hcut
    exact ⟨after.toList.reverse, before.toList.reverse, by simpa using hcut,
      by simp, by simp⟩

theorem cutFirst_eq_none_iff {delimiter : Char} {cs : List Char} :
    cutFirst delimiter cs = none ↔ delimiter ∉ cs := by
  induction cs with
  | nil => simp [cutFirst]
  | cons c rest ih =>
      by_cases hc : c = delimiter
      · simp [cutFirst, hc]
      · simp [cutFirst, hc, ih, Ne.symm hc]

theorem splitOnce_eq_none_iff {s : String} {delimiter : Char} :
    splitOnce s delimiter = none ↔ delimiter ∉ s.toList := by
  rw [splitOnce, Option.map_eq_none_iff, cutFirst_eq_none_iff]

section TrimEnd

variable {matcher : Char → Bool} {front back : String}

theorem trimEndMatches_idem (matcher : Char → Bool) (s : String) :
    trimEndMatches matcher (trimEndMatches matcher s) = trimEndMatches matcher s := by
  rw [trimEndMatches, trimEndMatches, String.toList_ofList, List.rdropWhile_idempotent]

theorem trimEndMatches_eq_empty_iff {s : String} :
    trimEndMatches matcher s = "" ↔ ∀ c ∈ s.toList, matcher c = true := by
  rw [← List.rdropWhile_eq_nil_iff, trimEndMatches, ← String.toList_inj, String.toList_ofList]
  rfl

theorem trimEndMatches_append_of_forall (h : ∀ c ∈ back.toList, matcher c = true) :
    trimEndMatches matcher (front ++ back) = trimEndMatches matcher front := by
  rw [trimEndMatches, trimEndMatches, String.toList_append, List.rdropWhile, List.reverse_append,
    List.dropWhile_append_of_pos (by simpa using h), ← List.rdropWhile]

theorem trimEndMatches_append_of_ne (h : trimEndMatches matcher back ≠ "") :
    trimEndMatches matcher (front ++ back) = front ++ trimEndMatches matcher back := by
  have hleft : back.toList.reverse.dropWhile matcher ≠ [] := by
    intro hnil
    apply h
    rw [trimEndMatches, List.rdropWhile, hnil]
    rfl
  rw [← String.toList_inj, trimEndMatches, trimEndMatches, String.toList_append,
    String.toList_append, String.toList_ofList, String.toList_ofList, List.rdropWhile,
    List.rdropWhile, List.reverse_append, List.dropWhile_append, if_neg (by simpa using hleft),
    List.reverse_append, List.reverse_reverse]

end TrimEnd

def Tight (s : String) : Prop :=
  ∀ c, s.toList.head? = some c ∨ s.toList.getLast? = some c →
    isWhitespace c = false

theorem tight_of_forall {s : String} (h : ∀ c ∈ s.toList, isWhitespace c = false) :
    Tight s := by
  rintro c (hhead | hlast)
  · exact h c (List.mem_of_mem_head? hhead)
  · exact h c (List.mem_of_mem_getLast? hlast)

theorem dropWhile_tight {s : String} (h : Tight s) (tail : List Char)
    (htail : ∀ c ∈ tail, isWhitespace c = true) :
    ((s.toList ++ tail).dropWhile isWhitespace).rdropWhile isWhitespace = s.toList := by
  have hright : (s.toList ++ tail).rdropWhile isWhitespace = s.toList := by
    rw [List.rdropWhile, List.reverse_append, List.dropWhile_append_of_pos (by simpa using htail),
      ← List.rdropWhile, List.rdropWhile_eq_self_iff]
    intro hne
    have hlast := h _ (Or.inr (List.getLast?_eq_some_getLast hne))
    simp [hlast]
  cases hs : s.toList with
  | nil => simp [List.dropWhile_eq_nil_iff.mpr htail]
  | cons c rest =>
      have hc : isWhitespace c = false := h c (Or.inl (by simp [hs]))
      rw [List.cons_append, List.dropWhile_cons_of_neg (by simp [hc]),
        ← List.cons_append, ← hs, hright]

/-- Trimming removes exactly the whitespace put around a tight word. -/
theorem trim_surround {left word right : String}
    (hleft : Blank left) (hright : Blank right) (hword : Tight word) :
    trim (left ++ word ++ right) = word := by
  rw [trim, String.toList_append, String.toList_append, List.append_assoc,
    List.dropWhile_append_of_pos hleft, dropWhile_tight hword _ hright,
    String.ofList_toList]

theorem trimMatches_surround {matcher : Char → Bool} {left word right : String}
    (hleft : ∀ c ∈ left.toList, matcher c = true)
    (hright : ∀ c ∈ right.toList, matcher c = true) :
    trimMatches matcher (left ++ word ++ right) = trimMatches matcher word := by
  have hend (cs : List Char) :
      (cs ++ right.toList).rdropWhile matcher = cs.rdropWhile matcher := by
    rw [List.rdropWhile, List.reverse_append,
      List.dropWhile_append_of_pos (by simpa using hright), ← List.rdropWhile]
  simp only [trimMatches, String.toList_append, List.append_assoc]
  rw [List.dropWhile_append_of_pos hleft, List.dropWhile_append]
  split
  next hempty =>
    -- the whole word is trimmed away, and what follows it with it
    rw [List.isEmpty_iff] at hempty
    rw [hempty, List.dropWhile_eq_nil_iff.mpr hright]
  next => rw [hend]

/-- `core` is `s` without what is trimmed at its ends, and nothing more is gone. -/
structure TrimsTo (matcher : Char → Bool) (s core : String) : Prop where
  surrounded : ∃ left right : String, (∀ c ∈ left.toList, matcher c = true) ∧
    (∀ c ∈ right.toList, matcher c = true) ∧ s = left ++ core ++ right
  tight : ∀ c, core.toList.head? = some c ∨ core.toList.getLast? = some c → matcher c = false

theorem trimMatches_of_tight {matcher : Char → Bool} {core : String}
    (h : ∀ c, core.toList.head? = some c ∨ core.toList.getLast? = some c → matcher c = false) :
    trimMatches matcher core = core := by
  have hleft : core.toList.dropWhile matcher = core.toList := by
    apply List.dropWhile_eq_self_iff.mpr
    intro hpos
    rw [h _ (Or.inl (List.head?_eq_getElem?.trans (List.getElem?_eq_getElem hpos)))]
    exact Bool.false_ne_true
  have hright : core.toList.rdropWhile matcher = core.toList := by
    apply List.rdropWhile_eq_self_iff.mpr
    intro hne
    rw [h _ (Or.inr (List.getLast?_eq_some_getLast hne))]
    exact Bool.false_ne_true
  rw [trimMatches, hleft, hright, String.ofList_toList]

theorem tight_trimMatches (matcher : Char → Bool) (s : String) (c : Char)
    (h : (trimMatches matcher s).toList.head? = some c ∨
      (trimMatches matcher s).toList.getLast? = some c) : matcher c = false := by
  rw [trimMatches, String.toList_ofList] at h
  rcases h with hhead | hlast
  · -- the first character is the one at which the left trim stopped
    obtain ⟨rest, hrest⟩ :=
      List.rdropWhile_prefix matcher (l := s.toList.dropWhile matcher)
    have hfirst : (s.toList.dropWhile matcher).head? = some c := by
      rw [← hrest, List.head?_append, hhead, Option.some_or]
    have hstop := List.head?_dropWhile_not matcher s.toList
    rw [hfirst] at hstop
    simpa using hstop
  · have hne : (s.toList.dropWhile matcher).rdropWhile matcher ≠ [] := by
      intro hnil
      rw [hnil] at hlast
      cases hlast
    have hstop := List.rdropWhile_last_not matcher _ hne
    rw [List.getLast?_eq_some_getLast hne] at hlast
    obtain rfl := Option.some.inj hlast
    simpa using hstop

/-- Trimming is exact: one string is left, whatever the class of characters is. -/
theorem trimsTo_iff {matcher : Char → Bool} {s core : String} :
    TrimsTo matcher s core ↔ core = trimMatches matcher s := by
  constructor
  · rintro ⟨⟨left, right, hleft, hright, rfl⟩, htight⟩
    rw [trimMatches_surround hleft hright, trimMatches_of_tight htight]
  · rintro rfl
    refine ⟨⟨String.ofList (s.toList.takeWhile matcher),
      String.ofList ((s.toList.dropWhile matcher).rtakeWhile matcher), ?_, ?_, ?_⟩,
      tight_trimMatches matcher s⟩
    · rw [String.toList_ofList]
      exact fun c hc => List.mem_takeWhile_imp hc
    · rw [String.toList_ofList]
      exact fun c hc => List.mem_rtakeWhile_imp hc
    · rw [← String.toList_inj, trimMatches]
      simp only [String.toList_append, String.toList_ofList, List.append_assoc]
      rw [List.rdropWhile_append_rtakeWhile, List.takeWhile_append_dropWhile]

theorem tight_bracket {first last : Char} {front middle back : String}
    (hfront : front.toList.head? = some first)
    (hback : back.toList.getLast? = some last)
    (hfirst : isWhitespace first = false) (hlast : isWhitespace last = false) :
    Tight (front ++ middle ++ back) := by
  rintro c (hc | hc)
  · have : c = first := by
      rw [String.toList_append, String.toList_append, List.append_assoc,
        List.head?_append, hfront] at hc
      simpa using hc.symm
    exact this ▸ hfirst
  · have : c = last := by
      rw [String.toList_append, List.getLast?_append, hback] at hc
      simpa using hc.symm
    exact this ▸ hlast

end Library.Text
