import SeamSdk.Sdk.HtuAgree
import Mathlib.Data.List.TakeWhile

/-!
# A target is its own target

Reading back what `htu` printed. Lower-casing moves letters only, so that the marks of the grammar stay where they are
(`mem_lower`); a host that was read is read again, alone or before a port (`splitAuthority_host`, `splitAuthority_port`);
a port is printed as the digits it is read from (`readPort_natText`). So the parts of a target are the authority and
the path that were printed (`split_targetText`), and under `https`, whose default port is never printed, it is its own
target (`ReadAs.htu_target`).

- `one_htu`: the four SDKs agree on every text, and what they print for an `https` URL is a fixed point with the path
  of the URL, without query, fragment or userinfo.
-/

namespace SeamSdk

open Checked Search DpopError UrlParts List

open Decimal (natText)

/-! ## Lower-casing -/

/-- A character that is no ASCII letter. -/
def isMark (c : Char) : Bool := !(65 ≤ c.toNat && c.toNat ≤ 90) && !(97 ≤ c.toNat && c.toNat ≤ 122)

theorem toNat_toLower (c : Char) :
    c.toLower.toNat = if 65 ≤ c.toNat ∧ c.toNat ≤ 90 then c.toNat + 32 else c.toNat := by
  have hiff : (c.val ≥ 'A'.val ∧ c.val ≤ 'Z'.val) ↔ 65 ≤ c.toNat ∧ c.toNat ≤ 90 := by
    rw [ge_iff_le, UInt32.le_iff_toNat_le, UInt32.le_iff_toNat_le]
    rfl
  unfold Char.toLower
  by_cases h : 65 ≤ c.toNat ∧ c.toNat ≤ 90
  · rw [dif_pos (hiff.mpr h), if_pos h]
    have hval : ('a'.val - 'A'.val).toNat = 32 := rfl
    show (c.val + ('a'.val - 'A'.val)).toNat = c.val.toNat + 32
    rw [UInt32.toNat_add, hval, Nat.mod_eq_of_lt]
    have hc : c.val.toNat ≤ 90 := h.2
    omega
  · rw [dif_neg (mt hiff.mp h), if_neg h]

theorem toLower_toLower (c : Char) : c.toLower.toLower = c.toLower := by
  apply Char.toNat_inj.mp
  rw [toNat_toLower c.toLower, toNat_toLower c]
  split
  · split <;> omega
  · omega

variable {host authority s portText scheme : List Char} {port : Option Nat} {d c : Char}

theorem toLower_eq_mark (hd : isMark d = true) : c.toLower = d ↔ c = d := by
  simp only [isMark, Bool.and_eq_true, Bool.not_eq_true', Bool.and_eq_false_iff, decide_eq_false_iff_not] at hd
  rw [← Char.toNat_inj, ← Char.toNat_inj, toNat_toLower]
  split <;> omega

theorem mem_lower (hd : isMark d = true) : d ∈ lower s ↔ d ∈ s := by
  unfold lower
  rw [mem_map]
  constructor
  · intro h
    obtain ⟨c, hc, hcd⟩ := h
    rw [toLower_eq_mark hd] at hcd
    exact hcd ▸ hc
  · intro h
    exact ⟨d, h, (toLower_eq_mark hd).mpr rfl⟩

theorem lower_lower (s : List Char) : lower (lower s) = lower s := by
  unfold lower
  rw [map_map]
  exact map_congr_left fun c _ => toLower_toLower c

theorem visible_lower (h : ∀ c ∈ s, 0x21 ≤ c.toNat ∧ c.toNat ≤ 0x7e) :
    ∀ c ∈ lower s, 0x21 ≤ c.toNat ∧ c.toNat ≤ 0x7e := by
  unfold lower
  intro c hc
  obtain ⟨c', hc', rfl⟩ := mem_map.mp hc
  have := h c' hc'
  rw [toNat_toLower]
  split <;> omega

/-! ## The host and the port -/

/-- A host that an authority can begin with: brackets around something, or a name without a colon. -/
def Hosted (host : List Char) : Prop :=
  (∃ inner, host = '[' :: inner ++ [']'] ∧ ']' ∉ inner ∧ inner ≠ []) ∨ (host.head? ≠ some '[' ∧ ':' ∉ host)

/-- A bracketed host is read up to its bracket. -/
theorem splitAuthority_bracketed {inner : List Char} (hinner : ']' ∉ inner) (hne : inner ≠ []) (t : List Char) :
    splitAuthority ('[' :: inner ++ ']' :: t) =
      match t with
      | [] => .ok ('[' :: inner ++ [']'], [])
      | ':' :: portText => .ok ('[' :: inner ++ [']'], portText)
      | _ => .error malformedIpv6 := by
  have hnot : ']' ∉ '[' :: inner := by
    simp [hinner]
  have hlen : 0 < inner.length := length_pos_iff.mpr hne
  have htake : ('[' :: inner ++ ']' :: t).take (('[' :: inner).length + 1) = '[' :: inner ++ [']'] := by
    rw [take_append, take_of_length_le (by omega), Nat.add_sub_cancel_left]
    rfl
  have hdrop : ('[' :: inner ++ ']' :: t).drop (('[' :: inner).length + 1) = t := by
    simp
  have hhead : ('[' :: inner ++ ']' :: t).head? = some '[' := rfl
  unfold splitAuthority
  rw [if_pos hhead, indexOf_append hnot t]
  simp only [htake, hdrop]
  exact if_neg (by rw [length_cons]; omega)

/-- Where a bracketed host was read, something stands between its brackets. -/
theorem bracketed_of_ok (hb : authority.head? = some '[') {r : List Char × List Char}
    (h : splitAuthority authority = .ok r) :
    ∃ inner t, authority = '[' :: inner ++ ']' :: t ∧ ']' ∉ inner ∧ inner ≠ [] := by
  unfold splitAuthority at h
  rw [if_pos hb] at h
  cases hclose : indexOf [']'] authority with
  | none => simp [hclose] at h
  | some close =>
    obtain ⟨hnot, heq⟩ := indexOf_singleton_eq_some.mp hclose
    simp only [hclose] at h
    split at h
    · cases h
    next hlt =>
      cases hinner : authority.take close with
      | nil =>
        rw [take_eq_nil_iff] at hinner
        rcases hinner with h0 | h0
        · omega
        · simp [h0] at hb
      | cons c inner =>
        rw [hinner] at heq hnot
        have hc : c = '[' := by
          rw [heq] at hb
          simpa using hb
        subst hc
        refine ⟨inner, authority.drop (close + 1), heq, fun hin => hnot (mem_cons_of_mem _ hin), ?_⟩
        intro hnil
        have hlen := congrArg List.length hinner
        have hle := indexOf_singleton_le hclose
        rw [length_take, hnil, length_singleton] at hlen
        omega

theorem splitAuthority_ok (h : splitAuthority authority = .ok (host, portText)) (hne : host ≠ []) :
    Hosted host ∧ (authority = host ∨ authority = host ++ ':' :: portText) := by
  by_cases hb : authority.head? = some '['
  · obtain ⟨inner, t, rfl, hinner, hinner'⟩ := bracketed_of_ok hb h
    rw [splitAuthority_bracketed hinner hinner'] at h
    split at h
    · cases h
      exact ⟨Or.inl ⟨inner, rfl, hinner, hinner'⟩, Or.inl rfl⟩
    · cases h
      exact ⟨Or.inl ⟨inner, rfl, hinner, hinner'⟩, Or.inr (by simp)⟩
    · cases h
  · unfold splitAuthority at h
    rw [if_neg hb] at h
    split at h
    next hcolon =>
      cases h
      exact ⟨Or.inr ⟨hb, indexOf_singleton_eq_none.mp hcolon⟩, Or.inl rfl⟩
    next colon hcolon =>
      obtain ⟨hnot, heq⟩ := indexOf_singleton_eq_some.mp hcolon
      split at h
      · cases h
      · cases h
        refine ⟨Or.inr ⟨?_, hnot⟩, Or.inr heq⟩
        rwa [heq, List.head?_append_of_ne_nil _ hne] at hb

theorem splitAuthority_host (h : Hosted host) : splitAuthority host = .ok (host, []) := by
  rcases h with ⟨inner, rfl, hinner, hne⟩ | ⟨hb, hcolon⟩
  · exact splitAuthority_bracketed hinner hne []
  · unfold splitAuthority
    rw [if_neg hb, indexOf_singleton_eq_none.mpr hcolon]

theorem splitAuthority_port (h : Hosted host) (hne : host ≠ []) (hport : ':' ∉ portText) :
    splitAuthority (host ++ ':' :: portText) = .ok (host, portText) := by
  rcases h with ⟨inner, rfl, hinner, hinner'⟩ | ⟨hb, hcolon⟩
  · rw [append_assoc]
    exact splitAuthority_bracketed hinner hinner' (':' :: portText)
  · unfold splitAuthority
    have hhead : (host ++ ':' :: portText).head? = host.head? := by
      cases host with
      | nil => exact absurd rfl hne
      | cons c host => rfl
    rw [hhead, if_neg hb, indexOf_append hcolon]
    simp [hport]

theorem Hosted.lower (h : Hosted host) : Hosted (lower host) := by
  rcases h with ⟨inner, rfl, hinner, hne⟩ | ⟨hb, hcolon⟩
  · refine Or.inl ⟨SeamSdk.lower inner, ?_, mt (mem_lower rfl).mp hinner, ?_⟩
    · simp [SeamSdk.lower]
    · simpa [SeamSdk.lower] using hne
  · refine Or.inr ⟨?_, mt (mem_lower rfl).mp hcolon⟩
    cases host with
    | nil => exact hb
    | cons c host =>
      simp only [SeamSdk.lower, map_cons, List.head?_cons, ne_eq, Option.some.injEq] at hb ⊢
      rwa [toLower_eq_mark rfl]

theorem readPort_ok (h : readPort portText = .ok port) : ∀ n ∈ port, n ≤ 65535 := by
  unfold readPort at h
  split at h
  · cases h
    simp
  · split at h
    next hport =>
      cases h
      simpa using hport.2
    · cases h

/-- A port is printed as the digits it is read from. -/
theorem readPort_natText {n : Nat} (h : n ≤ 65535) : readPort (natText n) = .ok (some n) := by
  have hne := Decimal.natText_ne_nil n
  have hlen : (natText n).length ≤ 5 := (Nat.length_toDigits_le_iff (by omega) (by omega)).mpr (by omega)
  unfold readPort
  rw [if_neg hne, Decimal.natOf_natText, if_pos ⟨(digits15_iff hne).mpr ⟨hlen, Decimal.all_natText n⟩, h⟩]

/-! ## The parts of a target -/

/-- A path is empty or begins at its slash. -/
theorem path_cases (scheme rest : List Char) :
    (of scheme rest).path = [] ∨ ∃ p, (of scheme rest).path = '/' :: p := by
  unfold of
  cases htail : rest.dropWhile (· ∉ authorityEnds) with
  | nil => exact Or.inl rfl
  | cons c t =>
    have hc : c ∈ authorityEnds := by
      have hhead := List.head?_dropWhile_not (· ∉ authorityEnds) rest
      rw [htail] at hhead
      simpa using hhead
    simp only [authorityEnds, mem_cons, not_mem_nil, or_false] at hc
    rcases hc with rfl | rfl | rfl
    · exact Or.inr ⟨t.takeWhile (· ∉ pathEnds), rfl⟩
    · exact Or.inl rfl
    · exact Or.inl rfl

theorem authority_avoids (scheme rest : List Char) : ∀ c ∈ (of scheme rest).authority, c ∉ authorityEnds := by
  intro c hc
  simpa using mem_takeWhile_imp hc

theorem path_avoids (scheme rest : List Char) : ∀ c ∈ (of scheme rest).path, c ∉ pathEnds := by
  intro c hc
  simpa using mem_takeWhile_imp hc

/-- The path that is printed for one that was read. -/
def printedPath (path : List Char) : List Char := if path = [] then ['/'] else path

/-- What was printed around an authority and a path is read as these. -/
theorem split_targetText {path : List Char} (ha : ∀ c ∈ authority, c ∉ authorityEnds) (hp : ∀ c ∈ path, c ∉ pathEnds)
    (hslash : path = [] ∨ ∃ p, path = '/' :: p) :
    split (targetText authority path) = some ⟨https, authority, printedPath path⟩ := by
  obtain ⟨p, hprinted⟩ : ∃ p, printedPath path = '/' :: p := by
    unfold printedPath
    rcases hslash with rfl | ⟨p, rfl⟩
    · exact ⟨[], rfl⟩
    · exact ⟨p, rfl⟩
  have havoids : ∀ c ∈ printedPath path, c ∉ pathEnds := by
    unfold printedPath
    split
    · simp [pathEnds]
    · exact hp
  have hindex (rest : List Char) : indexOf schemeEnd (https ++ schemeEnd ++ rest) = some 5 := rfl
  have hdrop (rest : List Char) : (https ++ schemeEnd ++ rest).drop (5 + 3) = rest := rfl
  have htake (rest : List Char) : (https ++ schemeEnd ++ rest).take 5 = https := rfl
  have htext : targetText authority path = https ++ schemeEnd ++ (authority ++ '/' :: p) := by
    rw [← hprinted, ← append_assoc]
    rfl
  unfold split of
  rw [htext, hindex, Option.map_some, htake, hdrop, hprinted]
  rw [hprinted] at havoids
  have ha' : ∀ c ∈ authority, decide (c ∉ authorityEnds) = true := fun c hc => decide_eq_true (ha c hc)
  have hp' : ('/' :: p).takeWhile (· ∉ pathEnds) = '/' :: p :=
    takeWhile_eq_self_iff.mpr fun c hc => decide_eq_true (havoids c hc)
  rw [takeWhile_append_of_pos ha', dropWhile_append_of_pos ha']
  have hstop : ('/' :: p).takeWhile (· ∉ authorityEnds) = [] := rfl
  have hrest : ('/' :: p).dropWhile (· ∉ authorityEnds) = '/' :: p := rfl
  rw [hstop, hrest, hp', append_nil]

/-- The parts of a URL are made of its characters. -/
theorem split_chars {url : List Char} {u : UrlParts} (h : split url = some u) :
    ∃ scheme rest, u = of scheme rest ∧ (∀ c ∈ u.authority, c ∈ url) ∧ ∀ c ∈ u.path, c ∈ url := by
  unfold split at h
  obtain ⟨i, _, rfl⟩ := Option.map_eq_some_iff.mp h
  refine ⟨_, _, rfl, ?_, ?_⟩
  · intro c hc
    exact mem_of_mem_drop ((takeWhile_sublist _).subset hc)
  · intro c hc
    have hmem := (dropWhile_sublist _).subset ((takeWhile_sublist _).subset hc)
    exact mem_of_mem_drop hmem

/-! ## Reading a target -/

/-- The parts that a URL is accepted with. -/
structure ReadAs (url : List Char) (u : UrlParts) (host : List Char) (port : Option Nat) : Prop where
  visible : tokenChars url = true
  split : split url = some u
  scheme : lower u.scheme = http ∨ lower u.scheme = https
  noUserinfo : '@' ∉ u.authority
  authority : ∃ portText, splitAuthority u.authority = .ok (host, portText) ∧ readPort portText = .ok port
  host_ne_nil : host ≠ []

theorem htu_ok {url target : List Char} : htu url = .ok target ↔
    ∃ u host port, ReadAs url u host port ∧
      targetText (authorityText (lower u.scheme) (lower host) port) u.path = target := by
  unfold htu
  simp only [bind_ok, refuse_ok, demand_ok, pure_ok, exists_const, Prod.exists, not_not, not_and_or, ne_eq]
  constructor
  · intro h
    obtain ⟨hvisible, u, hsplit, hscheme, huser, host, portText, hauth, hhost, port, hport, htarget⟩ := h
    exact ⟨u, host, port, ⟨hvisible, hsplit, hscheme, huser, ⟨portText, hauth, hport⟩, hhost⟩, htarget⟩
  · intro h
    obtain ⟨u, host, port, hr, htarget⟩ := h
    obtain ⟨portText, hauth, hport⟩ := hr.authority
    exact ⟨hr.visible, u, hr.split, hr.scheme, hr.noUserinfo, host, portText, hauth, hr.host_ne_nil, port, hport, htarget⟩

theorem mem_authorityText (hc : c ∈ authorityText scheme host port) : c ∈ host ∨ c = ':' ∨ c.isDigit = true := by
  unfold authorityText at hc
  split at hc
  next n =>
    split at hc
    · rw [mem_append, mem_cons] at hc
      rcases hc with hc | hc | hc
      · exact Or.inl hc
      · exact Or.inr (Or.inl hc)
      · exact Or.inr (Or.inr (Nat.isDigit_of_mem_toDigits (by omega) (by omega) hc))
    · exact Or.inl hc
  · exact Or.inl hc

theorem colon_notMem_natText (n : Nat) : ':' ∉ natText n := by
  intro h
  exact absurd (List.all_eq_true.mp (Decimal.all_natText n) _ h) (by decide)

/-- A printed authority is read as the host and, where it was printed, the port. -/
theorem splitAuthority_authorityText (hhost : Hosted host) (hne : host ≠ []) (hport : ∀ n ∈ port, n ≤ 65535) :
    ∃ portText port', splitAuthority (authorityText scheme host port) = .ok (host, portText) ∧
      readPort portText = .ok port' ∧ authorityText scheme host port' = authorityText scheme host port := by
  cases port with
  | none => exact ⟨[], none, splitAuthority_host hhost, rfl, rfl⟩
  | some n =>
    by_cases hn : n ≠ defaultPort scheme
    · have htext : authorityText scheme host (some n) = host ++ ':' :: natText n := if_pos hn
      refine ⟨natText n, some n, ?_, readPort_natText (hport n rfl), rfl⟩
      rw [htext]
      exact splitAuthority_port hhost hne (colon_notMem_natText n)
    · have htext : authorityText scheme host (some n) = host := if_neg hn
      refine ⟨[], none, ?_, rfl, htext.symm⟩
      rw [htext]
      exact splitAuthority_host hhost

/-- A character that is neither a colon nor a digit comes into a printed authority with the host. -/
theorem notMem_authorityText (hcolon : d ≠ ':') (hdigit : d.isDigit = false) (hhost : d ∉ host) :
    d ∉ authorityText scheme host port := by
  intro h
  rcases mem_authorityText h with h | h | h
  · exact hhost h
  · exact hcolon h
  · rw [hdigit] at h
    cases h

theorem mem_targetText {path : List Char} (hc : c ∈ targetText authority path) :
    c ∈ https ++ schemeEnd ++ ['/'] ∨ c ∈ authority ∨ c ∈ path := by
  unfold targetText at hc
  rw [mem_append, mem_append] at hc
  rw [mem_append]
  split at hc <;> tauto

theorem tokenChars_iff : tokenChars s = true ↔ s ≠ [] ∧ ∀ c ∈ s, 0x21 ≤ c.toNat ∧ c.toNat ≤ 0x7e := by
  unfold tokenChars
  simp

section Target

variable {url : List Char} {u : UrlParts} {host : List Char} {port : Option Nat} (hr : ReadAs url u host port)

include hr

theorem ReadAs.hosted : Hosted host ∧ ∀ c ∈ host, c ∈ u.authority := by
  obtain ⟨portText, hauth, _⟩ := hr.authority
  obtain ⟨hhost, heq⟩ := splitAuthority_ok hauth hr.host_ne_nil
  refine ⟨hhost, fun c hc => ?_⟩
  rcases heq with heq | heq
  · exact heq ▸ hc
  · rw [heq]
    exact mem_append_left _ hc

/-- Nothing that ends an authority, and no userinfo, is in the authority that is printed. -/
theorem ReadAs.authority_avoids (scheme : List Char) (hd : d ∈ '@' :: authorityEnds) :
    d ∉ authorityText scheme (lower host) port := by
  obtain ⟨_, _, rfl, _⟩ := split_chars hr.split
  have hmark : isMark d = true ∧ d ≠ ':' ∧ d.isDigit = false := by
    simp only [authorityEnds, mem_cons, not_mem_nil, or_false] at hd
    rcases hd with rfl | rfl | rfl | rfl <;> decide
  apply notMem_authorityText hmark.2.1 hmark.2.2
  rw [mem_lower hmark.1]
  intro hin
  have hin' := hr.hosted.2 d hin
  rcases mem_cons.mp hd with rfl | hend
  · exact hr.noUserinfo hin'
  · exact SeamSdk.authority_avoids _ _ d hin' hend

/-- The parts of what is printed. -/
theorem ReadAs.split_target (scheme : List Char) :
    UrlParts.split (targetText (authorityText scheme (lower host) port) u.path) =
      some ⟨https, authorityText scheme (lower host) port, printedPath u.path⟩ := by
  obtain ⟨_, _, rfl, _⟩ := split_chars hr.split
  refine split_targetText ?_ (path_avoids _ _) (path_cases _ _)
  intro c hc hend
  exact hr.authority_avoids scheme (mem_cons_of_mem _ hend) hc

theorem ReadAs.target_avoids (scheme : List Char) (hd : d ∈ pathEnds) :
    d ∉ targetText (authorityText scheme (lower host) port) u.path := by
  have hconst : d ∉ https ++ schemeEnd ++ ['/'] := by
    simp only [pathEnds, mem_cons, not_mem_nil, or_false] at hd
    rcases hd with rfl | rfl <;> decide
  obtain ⟨_, _, rfl, _⟩ := split_chars hr.split
  intro h
  rcases mem_targetText h with h | h | h
  · exact hconst h
  · exact hr.authority_avoids scheme (mem_cons_of_mem _ (mem_cons_of_mem _ hd)) h
  · exact path_avoids _ _ d h hd

theorem ReadAs.visible_target (scheme : List Char) :
    tokenChars (targetText (authorityText scheme (lower host) port) u.path) = true := by
  obtain ⟨_, _, _, hauth, hpath⟩ := split_chars hr.split
  have hurl := (tokenChars_iff.mp hr.visible).2
  rw [tokenChars_iff]
  refine ⟨cons_ne_nil _ _, fun c hc => ?_⟩
  rcases mem_targetText hc with hc | hc | hc
  · have hconst : tokenChars (https ++ schemeEnd ++ ['/']) = true := rfl
    exact (tokenChars_iff.mp hconst).2 c hc
  · rcases mem_authorityText hc with hc | rfl | hc
    · exact visible_lower (fun c hc => hurl c (hauth c (hr.hosted.2 c hc))) c hc
    · decide
    · have hdigit := Char.isDigit_iff_toNat.mp hc
      have h0 : '0'.toNat = 48 := rfl
      have h9 : '9'.toNat = 57 := rfl
      omega
  · exact hurl c (hpath c hc)

/-- A target under `https` is read as its authority and its path, and printed as it is. -/
theorem ReadAs.htu_target : htu (targetText (authorityText https (lower host) port) u.path) =
      .ok (targetText (authorityText https (lower host) port) u.path) := by
  obtain ⟨portText, _, hport⟩ := hr.authority
  have hne : lower host ≠ [] := by
    simpa [lower] using hr.host_ne_nil
  obtain ⟨portText', port', hsplit, hread, htext⟩ :=
    splitAuthority_authorityText hr.hosted.1.lower hne (readPort_ok hport)
  refine htu_ok.mpr ⟨_, lower host, port', ⟨hr.visible_target https, hr.split_target https, Or.inr rfl,
    hr.authority_avoids https mem_cons_self, ⟨portText', hsplit, hread⟩, hne⟩, ?_⟩
  have hlower : lower https = https := rfl
  show targetText (authorityText (lower https) (lower (lower host)) port') (printedPath u.path) = _
  rw [lower_lower, hlower, htext]
  unfold targetText printedPath
  congr 1
  split <;> simp_all

end Target

/-- **Main result.** Every SDK refuses a text with the same message or prints the same target for it. The target of an
`https` URL is its own target, has no query, fragment or userinfo, and has the path of the URL. -/
theorem one_htu (url : List Char) :
    (TypeScript.mgmtDpopHttpHtu url = Python.mgmtDpopHttpHtu url ∧ Go.httpHTU url = Python.mgmtDpopHttpHtu url ∧
      Java.httpHtu url = Python.mgmtDpopHttpHtu url) ∧
    ∀ u target, split url = some u → lower u.scheme = https → Python.mgmtDpopHttpHtu url = .ok target →
      Python.mgmtDpopHttpHtu target = .ok target ∧ '?' ∉ target ∧ '#' ∉ target ∧
      ∃ v, split target = some v ∧ '@' ∉ v.authority ∧
        v.path = if u.path = [] then ['/'] else u.path := by
  simp only [Python.mgmtDpopHttpHtu_eq, TypeScript.mgmtDpopHttpHtu_eq, Go.httpHTU_eq, Java.httpHtu_eq]
  refine ⟨⟨trivial, trivial, trivial⟩, ?_⟩
  intro u target hsplit hscheme hok
  obtain ⟨u', host, port, hr, rfl⟩ := htu_ok.mp hok
  obtain rfl : u = u' := Option.some.inj (hsplit.symm.trans hr.split)
  rw [hscheme]
  exact ⟨hr.htu_target, hr.target_avoids https (by decide), hr.target_avoids https (by decide), _,
    hr.split_target https, hr.authority_avoids https List.mem_cons_self, rfl⟩

theorem one_htu_default_port :
    Python.mgmtDpopHttpHtu "HTTPS://Mgmt.Example.COM:443/v1/tenants?limit=5#frag".toList =
      .ok "https://mgmt.example.com/v1/tenants".toList ∧
    Python.mgmtDpopHttpHtu "https://mgmt.example.com/v1/tenants".toList =
      .ok "https://mgmt.example.com/v1/tenants".toList :=
  have hok : Python.mgmtDpopHttpHtu "HTTPS://Mgmt.Example.COM:443/v1/tenants?limit=5#frag".toList =
      .ok "https://mgmt.example.com/v1/tenants".toList := by rfl
  ⟨hok, ((one_htu _).2 _ _ (by rfl) (by rfl) hok).1⟩

/-- Under `http` the port 443 is printed, and read again it is the default of `https`. -/
example : Java.httpHtu "http://host.example:443/v1/a".toList = .ok "https://host.example:443/v1/a".toList ∧
    Java.httpHtu "https://host.example:443/v1/a".toList = .ok "https://host.example/v1/a".toList := by
  constructor <;> rfl

end SeamSdk
