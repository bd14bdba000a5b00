import SeamSdk.Sdk.Htu

/-!
# One target in every SDK

The grammar the four functions share, written once: `UrlParts.split` cuts a URL at `://`, at the end of its authority and
at the end of its path, `splitAuthority` parts the host from the port, `readPort` reads the port, and `htu` checks and
prints them. Every SDK computes `htu`, with the same message where it refuses:

- `Python.mgmtDpopHttpHtu_eq`, `TypeScript.mgmtDpopHttpHtu_eq`, `Go.httpHTU_eq`, `Java.httpHtu_eq`.
-/

namespace SeamSdk

open Checked Search DpopError

open Decimal (natOf natText ascii_of_digits)

/-! ## The grammar -/

/-- The parts of a URL that its target is made of. -/
structure UrlParts where
  scheme : List Char
  authority : List Char
  path : List Char

/-- The parts, given the scheme and what follows `://`. -/
def UrlParts.of (scheme rest : List Char) : UrlParts where
  scheme := scheme
  authority := rest.takeWhile (· ∉ authorityEnds)
  path := (rest.dropWhile (· ∉ authorityEnds)).takeWhile (· ∉ pathEnds)

def UrlParts.split (url : List Char) : Option UrlParts :=
  (indexOf schemeEnd url).map fun i => UrlParts.of (url.take i) (url.drop (i + 3))

/-- The host and the text of the port. A bracketed host ends at its bracket, another one at the first colon. -/
def splitAuthority (authority : List Char) : Except String (List Char × List Char) :=
  if authority.head? = some '[' then
    match indexOf [']'] authority with
    | none => .error malformedIpv6
    | some close =>
      if close < 2 then .error malformedIpv6
      else match authority.drop (close + 1) with
        | [] => .ok (authority.take (close + 1), [])
        | ':' :: portText => .ok (authority.take (close + 1), portText)
        | _ => .error malformedIpv6
  else
    match indexOf [':'] authority with
    | none => .ok (authority, [])
    | some colon =>
      if ':' ∈ authority.drop (colon + 1) then .error manyColons
      else .ok (authority.take colon, authority.drop (colon + 1))

def readPort (portText : List Char) : Except String (Option Nat) :=
  if portText = [] then .ok none
  else if digits15 portText ∧ natOf portText ≤ 65535 then .ok (some (natOf portText))
  else .error invalidPort

/-- A host and its port, without the default one. -/
def authorityText (scheme host : List Char) : Option Nat → List Char
  | some port => if port ≠ defaultPort scheme then host ++ ':' :: natText port else host
  | none => host

def targetText (authority path : List Char) : List Char :=
  https ++ schemeEnd ++ authority ++ (if path = [] then ['/'] else path)

/-- The target of a URL. -/
def htu (url : List Char) : Except String (List Char) := do
  refuse (¬tokenChars url) notVisible
  let u ← demand (UrlParts.split url) notAbsolute
  refuse (lower u.scheme ≠ http ∧ lower u.scheme ≠ https) notAbsolute
  refuse ('@' ∈ u.authority) userinfo
  let (host, portText) ← splitAuthority u.authority
  refuse (host = []) noHost
  let port ← readPort portText
  return targetText (authorityText (lower u.scheme) (lower host) port) u.path

/-! ## Every SDK follows it -/

theorem isPrefixOf_singleton (c : Char) (s : List Char) : [c].isPrefixOf s = true ↔ s.head? = some c := by
  cases s with
  | nil => simp
  | cons a s => simpa using eq_comm

theorem bracketedHost_eq {authority : List Char} (h : authority.head? = some '[') : (do
      let r ← bracketedHost authority
      return (r.1, r.2.drop 1)) = splitAuthority authority := by
  unfold splitAuthority bracketedHost
  rw [if_pos h]
  cases hclose : indexOf [']'] authority with
  | none => rw [position_of_none hclose]; rfl
  | some close =>
    rw [position_of_some hclose]
    have hnext : ((close : Int) + 1).toNat = close + 1 := rfl
    have hlt : ((close : Int) < 2) ↔ close < 2 := by omega
    simp only [hnext, isPrefixOf_singleton, refuse, hlt]
    by_cases h2 : close < 2
    · simp only [if_pos h2]; rfl
    · simp only [if_neg h2]
      cases authority.drop (close + 1) with
      | nil => rfl
      | cons c after =>
        by_cases hc : c = ':'
        · subst hc; rfl
        · simp [hc]
          rfl

/-- A bracketed host is read alike, and another one up to its first colon. -/
theorem splitAuthority_of {authority : List Char} {plain : Except String (List Char × List Char)}
    (hnone : indexOf [':'] authority = none → plain = .ok (authority, []))
    (hsome : ∀ colon, indexOf [':'] authority = some colon → plain = do
      refuse (':' ∈ authority.drop (colon + 1)) manyColons
      return (authority.take colon, authority.drop (colon + 1))) : (if ['['].isPrefixOf authority then do
      let (host, after) ← bracketedHost authority
      return (host, after.drop 1)
    else plain) = splitAuthority authority := by
  by_cases h : authority.head? = some '['
  · rw [if_pos ((isPrefixOf_singleton _ _).mpr h), ← bracketedHost_eq h]
  · unfold splitAuthority
    rw [if_neg (mt (isPrefixOf_singleton _ _).mp h), if_neg h]
    cases hcolon : indexOf [':'] authority with
    | none => exact hnone hcolon
    | some colon =>
      rw [hsome colon hcolon]
      simp only [refuse]
      split <;> rfl

theorem drop_one_of_ne_nil (after : List Char) : (if after ≠ [] then after.drop 1 else []) = after.drop 1 := by
  cases after <;> rfl

theorem digits15_iff {portText : List Char} (h : portText ≠ []) :
    digits15 portText = true ↔ portText.length ≤ 5 ∧ portText.all Char.isDigit = true := by
  unfold digits15
  simp [h]

/-- A check that refuses what is no port. -/
theorem readPort_of {portText : List Char} {c : Prop} [Decidable c]
    (hc : portText ≠ [] → (c ↔ ¬(digits15 portText = true ∧ natOf portText ≤ 65535))) :
    (if portText ≠ [] then do
      refuse c invalidPort
      return some (natOf portText)
    else return none) = readPort portText := by
  unfold readPort
  by_cases h : portText = []
  · subst h
    rfl
  · rw [if_pos h, if_neg h]
    split
    next hport => rw [refuse_of_not (mt (hc h).mp (not_not.mpr hport))]; rfl
    next hport => rw [refuse_of ((hc h).mpr hport)]; rfl

theorem invalid_or {portText : List Char} : ¬digits15 portText = true ∨ 65535 < natOf portText ↔
      ¬(digits15 portText = true ∧ natOf portText ≤ 65535) := by
  rw [not_and_or, not_le]

namespace Python

theorem splitAuthority_eq (authority : List Char) : splitAuthority authority = SeamSdk.splitAuthority authority := by
  simp only [splitAuthority, drop_one_of_ne_nil]
  refine splitAuthority_of (fun h => ?_) fun colon h => ?_
  · simp only [partition, h]; rfl
  · simp only [partition, h]; rfl

theorem readPort_eq (portText : List Char) : readPort portText = SeamSdk.readPort portText := by
  refine readPort_of fun h => ?_
  have hascii (h : portText.all Char.isDigit = true) : portText.all (·.toNat < 128) = true := by
    simpa using ascii_of_digits h
  rw [digits15_iff h, ← not_le, ← not_le]
  tauto

theorem mgmtDpopHttpHtu_eq (url : List Char) : mgmtDpopHttpHtu url = htu url := by
  unfold mgmtDpopHttpHtu htu UrlParts.split partition
  cases h : indexOf schemeEnd url with
  | none =>
    rfl
  | some i =>
    have hscheme (scheme : List Char) : (schemeEnd = [] ∨ scheme ∉ [http, https]) ↔ scheme ≠ http ∧ scheme ≠ https := by
      simp [schemeEnd]
    simp only [firstOf, min_position, Int.toNat_natCast, take_findIdx_mem, drop_findIdx_mem, splitAuthority_eq, readPort_eq,
      refuse_congr (hscheme _)]
    rfl

end Python

namespace TypeScript

theorem splitAuthority_eq (authority : List Char) : splitAuthority authority = SeamSdk.splitAuthority authority := by
  refine splitAuthority_of (fun h => ?_) fun colon h => ?_
  · rw [position_of_none h]; rfl
  · have hfound : ¬(colon : Int) < 0 := by omega
    simp only [position_of_some h, if_neg hfound]
    rfl

theorem readPort_eq (portText : List Char) : readPort portText = SeamSdk.readPort portText :=
  readPort_of fun _ => invalid_or

theorem mgmtDpopHttpHtu_eq (url : List Char) : mgmtDpopHttpHtu url = htu url := by
  unfold mgmtDpopHttpHtu htu UrlParts.split
  cases h : indexOf schemeEnd url with
  | none =>
    rw [position_of_none h]
    rfl
  | some i =>
    have hfound : ¬(i : Int) < 0 := by omega
    have hrest : ((i : Int) + 3).toNat = i + 3 := rfl
    rw [position_of_some h]
    have hpath (path : List Char) : (if path ≠ [] then path else ['/']) = if path = [] then ['/'] else path :=
      ite_not ..
    simp only [if_neg hfound, hrest, firstOf, foldl_position, Int.toNat_natCast, take_findIdx_mem, drop_findIdx_mem,
      splitAuthority_eq, readPort_eq, hpath]
    rfl

end TypeScript

namespace Go

theorem splitAuthority_eq (authority : List Char) : splitAuthority authority = SeamSdk.splitAuthority authority := by
  simp only [splitAuthority, drop_one_of_ne_nil]
  refine splitAuthority_of (fun h => ?_) fun colon h => ?_
  · simp only [cut, h]; rfl
  · simp only [cut, h, true_and]; rfl

theorem withPort_eq (scheme host portText : List Char) : withPort scheme host portText = do
    return authorityText scheme host (← readPort portText) := by
  rw [← readPort_of fun _ => invalid_or]
  unfold withPort
  split
  · simp only [refuse_or, List.append_assoc, bind_assoc]
    rfl
  · rfl

/-- The index of the first item of a kind, or the length. -/
theorem cut_eq (s chars : List Char) :
    (if 0 ≤ indexAny s chars then (indexAny s chars).toNat else s.length) = s.findIdx (· ∈ chars) := by
  unfold indexAny
  rcases firstIndex_eq (· ∈ chars) s with ⟨hnone, hlen⟩ | hsome
  · rw [hnone, hlen]
    rfl
  · rw [hsome, if_pos (Int.natCast_nonneg _), Int.toNat_natCast]

theorem path_eq (s chars : List Char) :
    (if 0 ≤ indexAny s chars then s.take (indexAny s chars).toNat else s) = s.takeWhile (· ∉ chars) := by
  rw [← take_findIdx_mem, ← cut_eq]
  split
  · rfl
  · rw [List.take_length]

theorem httpHTU_eq (rawURL : List Char) : httpHTU rawURL = htu rawURL := by
  unfold httpHTU htu UrlParts.split cut
  cases h : indexOf schemeEnd rawURL with
  | none => rfl
  | some i =>
    simp only [cut_eq, path_eq, take_findIdx_mem, drop_findIdx_mem, splitAuthority_eq, withPort_eq, bind_assoc, pure_bind,
      not_true, false_or]
    rfl

end Go

namespace Java

theorem firstOf_eq (s chars : List Char) : firstOf s chars = Go.indexAny s chars := by
  unfold firstOf Go.indexAny
  simp only [position_singleton_nonneg]

theorem splitAuthority_eq (authority : List Char) : splitAuthority authority = SeamSdk.splitAuthority authority := by
  simp only [splitAuthority, drop_one_of_ne_nil]
  refine splitAuthority_of (fun h => ?_) fun colon h => ?_
  · rw [position_of_none h]; rfl
  · have hfound : ¬(colon : Int) < 0 := by omega
    simp only [position_of_some h, position_singleton_nonneg, if_neg hfound, if_pos (Int.natCast_nonneg _)]
    rfl

theorem withPort_eq (scheme host portText : List Char) : withPort scheme host portText = do
    return authorityText scheme host (← readPort portText) := by
  rw [← Go.withPort_eq]
  simp only [withPort, Go.withPort, refuse_or]

theorem authority_eq (s chars : List Char) :
    (if firstOf s chars < 0 then s else s.take (firstOf s chars).toNat) = s.takeWhile (· ∉ chars) := by
  rw [firstOf_eq, ← Go.path_eq]
  simp only [← not_le, ite_not]

theorem tail_eq (s chars : List Char) :
    (if firstOf s chars < 0 then [] else s.drop (firstOf s chars).toNat) = s.dropWhile (· ∉ chars) := by
  rw [firstOf_eq, ← drop_findIdx_mem, ← Go.cut_eq]
  simp only [← not_le, ite_not]
  split
  · rfl
  · rw [List.drop_length]

theorem httpHtu_eq (url : List Char) : httpHtu url = htu url := by
  unfold httpHtu htu UrlParts.split
  cases h : indexOf schemeEnd url with
  | none => rw [position_of_none h]; rfl
  | some i =>
    have hfound : ¬(i : Int) < 0 := by omega
    have hrest : ((i : Int) + 3).toNat = i + 3 := rfl
    rw [position_of_some h]
    simp only [hfound, if_false, false_or, hrest, authority_eq, tail_eq, splitAuthority_eq, withPort_eq, bind_assoc,
      pure_bind]
    rfl

end Java

end SeamSdk
