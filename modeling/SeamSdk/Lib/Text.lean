import SeamSdk.Lib.ByteCodec

/-!
# Text functions of the Rust standard library

`str::trim`, `str::lines` and `str::split` on Unicode scalar values, and hexadecimal. A text written as lines that hold
no line break, each ended by `\n`, is read back by `lines` (`lines_unlines`); `splitGo_piece` and `splitGo_last` do the
same for `split`.
-/

namespace RustText

open List

open ByteCodec (Bytes hexDigitValue)

/-- `char::is_whitespace`: the Unicode property `White_Space`. -/
def isWhitespace (c : Char) : Bool :=
  let n := c.toNat
  (9 ≤ n && n ≤ 13) || n == 0x20 || n == 0x85 || n == 0xA0 || n == 0x1680 || (0x2000 ≤ n && n ≤ 0x200A) ||
    n == 0x2028 || n == 0x2029 || n == 0x202F || n == 0x205F || n == 0x3000

def trimChars (cs : List Char) : List Char :=
  ((cs.dropWhile isWhitespace).reverse.dropWhile isWhitespace).reverse

/-- `str::trim`. -/
def trim (s : String) : String := String.ofList (trimChars s.toList)

/-- Drop the `\r` of a `\r\n`; the line is held in reverse. -/
def stripCr : List Char → List Char
  | '\r' :: cs => cs
  | cs => cs

/-- `str::lines`, with the line being read held in reverse. A last line without `\n` keeps a trailing `\r`. -/
def linesGo : List Char → List Char → List (List Char)
  | [], [] => []
  | acc, [] => [acc.reverse]
  | acc, '\n' :: cs => (stripCr acc).reverse :: linesGo [] cs
  | acc, c :: cs => linesGo (c :: acc) cs

/-- `str::lines`. -/
def lines (s : String) : List String := (linesGo [] s.toList).map String.ofList

/-- Lines each followed by `\n`. -/
def unlines (ls : List String) : String := String.ofList (ls.flatMap fun l => l.toList ++ ['\n'])

/-- `str::starts_with`. -/
def startsWith (s pat : String) : Bool := pat.toList.isPrefixOf s.toList

/-- `str::contains`. -/
def contains (s pat : String) : Bool := s.toList.tails.any pat.toList.isPrefixOf

/-- The pieces between the occurrences of a character, with the piece being read held in reverse. -/
def splitGo (sep : Char) : List Char → List Char → List (List Char)
  | acc, [] => [acc.reverse]
  | acc, c :: cs => if c = sep then acc.reverse :: splitGo sep [] cs else splitGo sep (c :: acc) cs

/-- `str::split` at a character. -/
def split (sep : Char) (s : String) : List String := (splitGo sep [] s.toList).map String.ofList

/-- `str::is_ascii`. -/
def isAscii (s : String) : Bool := s.toList.all fun c => c.toNat < 128

/-- `char::to_digit` in base 16. -/
def hexValue (c : Char) : Option Nat := hexDigitValue c.toNat

/-- The digits of `u8::from_str_radix`: a leading `+` is dropped when something follows it. -/
def radixDigits : List Char → List Char
  | '+' :: c :: cs => c :: cs
  | cs => cs

/-- `u8::from_str_radix` in base 16. -/
def u8FromHex (cs : List Char) : Option UInt8 :=
  match radixDigits cs with
  | [] => none
  | ds => do
    let n ← ds.foldlM (fun n c => do
      let d ← hexValue c
      if n * 16 + d < 256 then some (n * 16 + d) else none) 0
    return UInt8.ofNat n

def hexDigit (n : Nat) : Char := Char.ofNat (if n < 10 then 48 + n else 87 + n)

/-- Two lowercase hexadecimal digits a byte. -/
def hex (b : Bytes) : String :=
  String.ofList (b.flatMap fun x => [hexDigit (x.toNat / 16), hexDigit (x.toNat % 16)])

/-! ## Trimming -/

theorem dropWhile_eq_self {p : Char → Bool} {cs : List Char} (h : ∀ c ∈ cs, p c = false) : cs.dropWhile p = cs := by
  cases cs with
  | nil => rfl
  | cons c cs => rw [dropWhile_cons, if_neg (by simp [h c mem_cons_self])]

theorem trimChars_eq_self {cs : List Char} (h : ∀ c ∈ cs, isWhitespace c = false) : trimChars cs = cs := by
  rw [trimChars, dropWhile_eq_self h, dropWhile_eq_self (fun c hc => h c (mem_reverse.mp hc)),
    reverse_reverse]

theorem trim_eq_self {s : String} (h : ∀ c ∈ s.toList, isWhitespace c = false) : trim s = s := by
  rw [trim, trimChars_eq_self h, String.ofList_toList]

/-! ## Lines -/

theorem linesGo_line : ∀ {l acc rest : List Char}, '\n' ∉ l → '\r' ∉ l → (l = [] → acc.head? ≠ some '\r') →
    linesGo acc (l ++ '\n' :: rest) = (acc.reverse ++ l) :: linesGo [] rest
  | [], acc, rest, _, _, hacc => by
    have hstrip : stripCr acc = acc := by
      unfold stripCr
      split
      · exact absurd rfl (hacc rfl)
      · rfl
    rw [nil_append, linesGo, hstrip, append_nil]
  | c :: l, acc, rest, hn, hr, _ => by
    simp only [mem_cons, not_or] at hn hr
    rw [cons_append, linesGo, linesGo_line hn.2 hr.2 (fun _ => by simpa using Ne.symm hr.1)]
    · simp
    · exact fun h => hn.1 h.symm

/-- **Lines written out are read back.** -/
theorem lines_unlines {ls : List String} (h : ∀ l ∈ ls, '\n' ∉ l.toList ∧ '\r' ∉ l.toList) :
    lines (unlines ls) = ls := by
  have hgo : ∀ ls : List String, (∀ l ∈ ls, '\n' ∉ l.toList ∧ '\r' ∉ l.toList) →
      linesGo [] (ls.flatMap fun l => l.toList ++ ['\n']) = ls.map String.toList := by
    intro ls
    induction ls with
    | nil => intro _; rfl
    | cons l ls ih =>
      intro h
      have hl := h l mem_cons_self
      rw [flatMap_cons, append_assoc, singleton_append,
        linesGo_line hl.1 hl.2 (fun _ => by simp), ih (fun m hm => h m (mem_cons_of_mem _ hm))]
      simp
  rw [lines, unlines, String.toList_ofList, hgo ls h, map_map]
  conv => rhs; rw [← map_id ls]
  exact map_congr_left fun l _ => String.ofList_toList

/-! ## Splitting -/

variable {l : List Char} {sep : Char}

/-- The last piece holds what is left. -/
theorem splitGo_last (h : sep ∉ l) (acc : List Char) : splitGo sep acc l = [acc.reverse ++ l] := by
  induction l generalizing acc with
  | nil => simp [splitGo]
  | cons c l ih =>
    rw [mem_cons, not_or] at h
    rw [splitGo, if_neg (Ne.symm h.1), ih h.2]
    simp

/-- A piece ends at the first separator. -/
theorem splitGo_piece (h : sep ∉ l) (acc rest : List Char) :
    splitGo sep acc (l ++ sep :: rest) = (acc.reverse ++ l) :: splitGo sep [] rest := by
  induction l generalizing acc with
  | nil => simp [splitGo]
  | cons c l ih =>
    rw [mem_cons, not_or] at h
    rw [cons_append, splitGo, if_neg (Ne.symm h.1), ih h.2]
    simp

theorem splitGo_ne_nil (sep : Char) (acc l : List Char) : splitGo sep acc l ≠ [] := by
  induction l generalizing acc with
  | nil => exact cons_ne_nil _ _
  | cons c l ih =>
    unfold splitGo
    split
    · exact cons_ne_nil _ _
    · exact ih _

/-- No piece holds the separator. -/
theorem not_mem_of_mem_splitGo {acc piece : List Char} (hacc : sep ∉ acc) (h : piece ∈ splitGo sep acc l) :
    sep ∉ piece := by
  induction l generalizing acc with
  | nil =>
    rw [splitGo, mem_singleton] at h
    rwa [h, mem_reverse]
  | cons c l ih =>
    unfold splitGo at h
    split at h
    · rcases mem_cons.mp h with rfl | h
      · rwa [mem_reverse]
      · exact ih not_mem_nil h
    · rename_i hc
      exact ih (not_mem_cons_of_ne_of_not_mem (Ne.symm hc) hacc) h

theorem not_mem_of_mem_split {s piece : String} (h : piece ∈ split sep s) : sep ∉ piece.toList := by
  obtain ⟨l, hl, rfl⟩ := mem_map.mp h
  rw [String.toList_ofList]
  exact not_mem_of_mem_splitGo not_mem_nil hl

/-- There is one piece more than there are separators. -/
theorem length_splitGo (sep : Char) (acc l : List Char) : (splitGo sep acc l).length = l.count sep + 1 := by
  induction l generalizing acc with
  | nil => rfl
  | cons c l ih =>
    unfold splitGo
    by_cases hc : c = sep
    · rw [if_pos hc, length_cons, ih, hc, count_cons_self]
    · rw [if_neg hc, ih, count_cons_of_ne hc]

theorem length_split (sep : Char) (s : String) : (split sep s).length = s.toList.count sep + 1 := by
  rw [split, length_map, length_splitGo]

/-- Separators at the end give empty pieces. -/
theorem splitGo_append_replicate (sep : Char) (acc l : List Char) (n : Nat) :
    splitGo sep acc (l ++ List.replicate n sep) = splitGo sep acc l ++ List.replicate n [] := by
  induction l generalizing acc with
  | nil =>
    induction n generalizing acc with
    | zero => rfl
    | succ n ih =>
      have hpiece : splitGo sep acc ([] ++ sep :: List.replicate n sep) = _ :=
        splitGo_piece not_mem_nil acc (List.replicate n sep)
      simp only [nil_append] at hpiece ih ⊢
      rw [replicate_succ, hpiece, ih []]
      simp [splitGo, replicate_succ]
  | cons c l ih =>
    rw [cons_append]
    unfold splitGo
    split
    · rw [ih, cons_append]
    · rw [ih]

/-- Only a separator at the end gives an empty piece there. -/
theorem getLast_splitGo (sep : Char) {acc : List Char} (h : ∀ c, (acc.reverse ++ l).getLast? = some c → c ≠ sep)
    (hne : acc.reverse ++ l ≠ []) : (splitGo sep acc l).getLast? ≠ some [] := by
  induction l generalizing acc with
  | nil =>
    intro hnil
    simp only [splitGo, List.getLast?_singleton, Option.some.injEq] at hnil
    rw [hnil] at hne
    exact hne rfl
  | cons c l ih =>
    unfold splitGo
    split
    · rename_i hc
      subst hc
      cases l with
      | nil => exact absurd rfl (h c (by simp))
      | cons d l =>
        rw [List.getLast?_cons_of_ne_nil (splitGo_ne_nil _ _ _)]
        refine ih (fun e he => h e ?_) (by simp)
        simpa using he
    · refine ih (fun e he => h e ?_) (by simp)
      simpa using he

/-- Put together again, the pieces are the text. -/
theorem intercalate_splitGo (sep : Char) (acc l : List Char) :
    [sep].intercalate (splitGo sep acc l) = acc.reverse ++ l := by
  induction l generalizing acc with
  | nil => simp [splitGo, List.intercalate]
  | cons c l ih =>
    unfold splitGo
    split
    · rename_i hc
      obtain ⟨y, ys, hy⟩ := exists_cons_of_ne_nil (splitGo_ne_nil sep [] l)
      have hrest := ih []
      rw [hy] at hrest ⊢
      rw [intercalate_cons_cons, hrest, hc]
      simp
    · rw [ih]
      simp

theorem intercalate_split (sep : Char) (s : String) :
    [sep].intercalate ((split sep s).map String.toList) = s.toList := by
  have hback : (split sep s).map String.toList = splitGo sep [] s.toList := by
    simp [split, map_map, Function.comp_def]
  rw [hback, intercalate_splitGo]
  rfl

end RustText
