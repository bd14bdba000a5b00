import SeamSdk.Sdk.Tct

/-!
# A token that is issued is read

A token is written as three unpadded base64url segments with dots between them, and its issuer is named by its key
(`aidFromPubkey`). Whatever the two documents hold, each SDK reads them back when the decoder of its platform reads
what the encoder writes, its JSON reader reads the two texts, no key is repeated and the signature verifies:
`Python.readToken_issued`, `TypeScript.readToken_issued`, `Go.readToken_issued`, `Java.readToken_issued`.
-/

namespace SeamSdk

open ByteCodec Checked Base64

def b64urlNoPad (b : Bytes) : String := encodeUnpadded urlSafe b

def aidFromPubkey (pubkey : Bytes) : String := "aid:pubkey:ed25519:" ++ b64urlNoPad pubkey

/-- A token before it is written, with the key of its issuer. -/
structure Issued where
  header : Json
  payload : Json
  sig : Bytes
  key : Bytes

namespace Issued

variable (t : Issued)

def headerSegment : String := b64urlNoPad (utf8 t.header.text)

def payloadSegment : String := b64urlNoPad (utf8 t.payload.text)

/-- What is signed. -/
def message : String := t.headerSegment ++ "." ++ t.payloadSegment

def compact : String := t.message ++ "." ++ b64urlNoPad t.sig

end Issued

/-! ## Segments -/

theorem value_of_mem_b64urlNoPad {b : Bytes} {c : Char} (h : c ∈ (b64urlNoPad b).toList) :
    (urlSafe.value c).isSome = true :=
  value_of_mem_encodeUnpadded urlSafe_lawful h

theorem not_mem_b64urlNoPad {b : Bytes} {c : Char} (hc : urlSafe.value c = none) : c ∉ (b64urlNoPad b).toList := by
  intro h
  have := value_of_mem_b64urlNoPad h
  rw [hc] at this
  cases this

theorem Issued.split_compact (t : Issued) :
    RustText.split '.' t.compact = [t.headerSegment, t.payloadSegment, b64urlNoPad t.sig] := by
  have hheader : '.' ∉ t.headerSegment.toList := not_mem_b64urlNoPad rfl
  have hpayload : '.' ∉ t.payloadSegment.toList := not_mem_b64urlNoPad rfl
  have htext : t.compact.toList =
      t.headerSegment.toList ++ '.' :: (t.payloadSegment.toList ++ '.' :: (b64urlNoPad t.sig).toList) := by
    simp [Issued.compact, Issued.message]
  unfold RustText.split
  rw [htext, RustText.splitGo_piece hheader, RustText.splitGo_piece hpayload,
    RustText.splitGo_last (not_mem_b64urlNoPad rfl)]
  simp

theorem Issued.jwsSegments_compact (t : Issued) :
    jwsSegments t.compact = some (t.headerSegment, t.payloadSegment, b64urlNoPad t.sig) := by
  rw [jwsSegments, t.split_compact]

theorem b64urlNoPad_ne_empty {b : Bytes} (h : b ≠ []) : b64urlNoPad b ≠ "" := by
  intro hempty
  have hback := decodeUnpadded_encodeUnpadded urlSafe_lawful b
  rw [show encodeUnpadded urlSafe b = "" from hempty] at hback
  exact h (Option.some.inj hback).symm

/-- Java finds three pieces as well, as the last one is not empty. -/
theorem Issued.splitDots_compact {t : Issued} (h : t.sig ≠ []) :
    Java.splitDots t.compact = [t.headerSegment, t.payloadSegment, b64urlNoPad t.sig] := by
  have hlast : (b64urlNoPad t.sig == "") = false := beq_eq_false_iff_ne.mpr (b64urlNoPad_ne_empty h)
  rw [Java.splitDots, t.split_compact]
  simp [hlast]

theorem Issued.isAscii_message (t : Issued) : RustText.isAscii t.message = true := by
  have hseg : ∀ b, ∀ c ∈ (b64urlNoPad b).toList, c.toNat < 128 :=
    fun _ _ h => urlSafe_lt (value_of_mem_b64urlNoPad h)
  unfold RustText.isAscii
  rw [List.all_eq_true]
  intro c hc
  apply decide_eq_true
  simp only [Issued.message, String.toList_append, List.mem_append] at hc
  rcases hc with (hc | hc) | hc
  · exact hseg _ c hc
  · obtain rfl : c = '.' := by simpa using hc
    decide
  · exact hseg _ c hc

/-! ## The issuer -/

/-- The key is recovered from the name it gives. -/
theorem aidToPubkey_aidFromPubkey {decode : String → Option Bytes} {key : Bytes}
    (h : decode (b64urlNoPad key) = some key) : aidToPubkey decode (aidFromPubkey key) = some key := by
  have hstrip : stripPrefix "aid:pubkey:ed25519:" (aidFromPubkey key) = some (b64urlNoPad key) :=
    stripPrefix_append _ _
  rw [aidToPubkey, hstrip, Option.some_or, Option.bind_some, h]

theorem aidFromPubkey_ne_empty (key : Bytes) : aidFromPubkey key ≠ "" := by
  intro h
  exact absurd (String.append_eq_empty_iff.mp h).1 (by decide)

/-! ## Decoders -/

theorem padded_b64urlNoPad (b : Bytes) :
    b64urlNoPad b ++ String.ofList (List.replicate (padding (b64urlNoPad b).length) '=') =
      encodePadded urlSafe b := by
  simp [b64urlNoPad, encodeUnpadded, encodePadded, String.ofList_append]

theorem Python.b64urlDecode_b64urlNoPad {x : Python}
    (h : ∀ b, x.urlsafeB64decode (encodePadded urlSafe b) = some b) (b : Bytes) :
    x.b64urlDecode (b64urlNoPad b) = some b := by
  rw [Python.b64urlDecode, padded_b64urlNoPad, h]

/-- Nothing is trimmed from text without padding. -/
theorem Go.b64urlDecode_b64urlNoPad {x : Go} (h : ∀ b, x.decodeString (b64urlNoPad b) = some b) (b : Bytes) :
    x.b64urlDecode (b64urlNoPad b) = some b := by
  have htrim : (b64urlNoPad b).toList.reverse.dropWhile (· == '=') = (b64urlNoPad b).toList.reverse := by
    apply RustText.dropWhile_eq_self
    intro c hc
    rw [beq_eq_false_iff_ne]
    rintro rfl
    exact not_mem_b64urlNoPad rfl (List.mem_reverse.mp hc)
  rw [Go.b64urlDecode, htrim, List.reverse_reverse, String.ofList_toList, h]

/-- On such text a UTF-16 unit is a character. -/
theorem Java.length_b64urlNoPad (b : Bytes) : Java.length (b64urlNoPad b) = (b64urlNoPad b).length := by
  have hone : ((b64urlNoPad b).toList.map fun c => if c.toNat < 0x10000 then 1 else 2) =
      (b64urlNoPad b).toList.map fun _ => 1 := by
    apply List.map_congr_left
    intro c hc
    have := urlSafe_lt (value_of_mem_b64urlNoPad hc)
    rw [if_pos (by omega)]
  rw [Java.length, hone, ← String.length_toList]
  simp

theorem Java.b64urlDecode_b64urlNoPad {x : Java}
    (h : ∀ b, x.urlDecode (encodePadded urlSafe b) = some b) (b : Bytes) :
    x.b64urlDecode (b64urlNoPad b) = some b := by
  rw [Java.b64urlDecode, Java.length_b64urlNoPad, padded_b64urlNoPad, h]

/-! ## Tokens -/

section Tokens

variable {t : Issued}

/-- **Python reads a token that is issued.** -/
theorem Python.readToken_issued {x : Python}
    (hdec : ∀ b, x.urlsafeB64decode (encodePadded urlSafe b) = some b)
    (hheader : x.jsonLoads (utf8 t.header.text) = some t.header)
    (hpayload : x.jsonLoads (utf8 t.payload.text) = some t.payload) (hh : t.header.distinctKeys = true)
    (hp : t.payload.distinctKeys = true) (hsig : x.ed25519Verify t.key (utf8 t.message) t.sig = true) :
    x.readToken (aidFromPubkey t.key) t.compact = some (t.header, t.payload) := by
  have hd := Python.b64urlDecode_b64urlNoPad hdec
  have hh' : x.b64urlDecode t.headerSegment = some (utf8 t.header.text) := hd _
  have hp' : x.b64urlDecode t.payloadSegment = some (utf8 t.payload.text) := hd _
  have hascii : encodeAscii (t.headerSegment ++ "." ++ t.payloadSegment) = some (utf8 t.message) :=
    if_pos t.isAscii_message
  simp [readToken, t.jwsSegments_compact, aidToPubkey_aidFromPubkey (hd _), hd, hascii, hsig, loads, hh', hp', hheader,
    hpayload, Option.filter_some, hh, hp, guard]

/-- **TypeScript reads a token that is issued.** -/
theorem TypeScript.readToken_issued {x : TypeScript} (hdec : ∀ b, x.bufferFrom (b64urlNoPad b) = b)
    (hstr : ∀ s, x.bufferToString (utf8 s) = s) (hheader : x.jsonParse t.header.text = some t.header)
    (hpayload : x.jsonParse t.payload.text = some t.payload)
    (hh : x.jsonHasDuplicateKey t.header.text = some false) (hp : x.jsonHasDuplicateKey t.payload.text = some false)
    (hobj : t.header.isObj = true ∧ t.payload.isObj = true)
    (hsig : x.ed25519Verify t.key (utf8 t.message) t.sig = true) :
    x.readToken (aidFromPubkey t.key) t.compact = some (t.header, t.payload) := by
  have hh' : x.bufferFrom t.headerSegment = utf8 t.header.text := hdec _
  have hp' : x.bufferFrom t.payloadSegment = utf8 t.payload.text := hdec _
  have hkey : aidToPubkey (fun s => some (x.bufferFrom s)) (aidFromPubkey t.key) = some t.key :=
    aidToPubkey_aidFromPubkey (congrArg some (hdec _))
  have hmessage : t.headerSegment ++ "." ++ t.payloadSegment = t.message := rfl
  simp [readToken, t.jwsSegments_compact, hkey, hdec, hmessage, hsig, hh', hp', hstr, parseJsonNoDuplicates, hheader,
    hpayload, hh, hp, hobj, guard]

/-- **Go reads a token that is issued.** -/
theorem Go.readToken_issued {x : Go} (hdec : ∀ b, x.decodeString (b64urlNoPad b) = some b)
    (hheader : x.tokens (utf8 t.header.text) = some t.header ∧ x.unmarshal (utf8 t.header.text) = some t.header)
    (hpayload : x.tokens (utf8 t.payload.text) = some t.payload ∧ x.unmarshal (utf8 t.payload.text) = some t.payload)
    (hh : t.header.distinctKeys = true) (hp : t.payload.distinctKeys = true) (hkey : t.key.length = 32)
    (hsig : x.ed25519Verify t.key (utf8 t.message) t.sig = true) :
    x.readToken (aidFromPubkey t.key) t.compact = some (t.header, t.payload) := by
  have hd := Go.b64urlDecode_b64urlNoPad hdec
  have hh' : x.b64urlDecode t.headerSegment = some (utf8 t.header.text) := hd _
  have hp' : x.b64urlDecode t.payloadSegment = some (utf8 t.payload.text) := hd _
  have hmessage : t.headerSegment ++ "." ++ t.payloadSegment = t.message := rfl
  simp [readToken, t.jwsSegments_compact, aidToPubkey_aidFromPubkey (hd _), hkey, hd, hmessage, hsig, hh', hp',
    hasDuplicateKey, hheader, hpayload, (scanForDuplicate_eq_false_iff _).mpr hh,
    (scanForDuplicate_eq_false_iff _).mpr hp, guard]

/-- **Java reads a token that is issued.** -/
theorem Java.readToken_issued {x : Java}
    (hdec : ∀ b, x.urlDecode (encodePadded urlSafe b) = some b) (hstr : ∀ s, x.newString (utf8 s) = s)
    (hheader : x.strictReader t.header.text = some t.header ∧ x.fromJson t.header.text = some t.header)
    (hpayload : x.strictReader t.payload.text = some t.payload ∧ x.fromJson t.payload.text = some t.payload)
    (hh : t.header.distinctKeys = true) (hp : t.payload.distinctKeys = true) (hkey : t.key.length = 32)
    (hne : t.sig ≠ []) (hsig : x.ed25519Verify t.key (Java.asciiBytes t.message) t.sig = true) :
    x.readToken (aidFromPubkey t.key) t.compact = some (t.header, t.payload) := by
  have hd := Java.b64urlDecode_b64urlNoPad hdec
  have hh' : x.b64urlDecode t.headerSegment = some (utf8 t.header.text) := hd _
  have hp' : x.b64urlDecode t.payloadSegment = some (utf8 t.payload.text) := hd _
  have hmessage : t.headerSegment ++ "." ++ t.payloadSegment = t.message := rfl
  simp [readToken, readSegments, Issued.splitDots_compact hne, aidToPubkey_aidFromPubkey (hd _), hkey, hd, hmessage, hsig, hh',
    hp', hstr, hasDuplicateKey, hheader, hpayload, (scanForDuplicate_eq_false_iff _).mpr hh,
    (scanForDuplicate_eq_false_iff _).mpr hp, guard]

end Tokens

/-! ## Platforms that read one token -/

/-- Platforms whose hash is a checksum, for an issuer that has signed one message. -/
def Sdk.sample (signed : Bytes) : Sdk where
  sha256 := (Externs.sample []).sha256
  ed25519Verify _ m _ := m == signed
  showStr s := s
  showF64 _ := "0.0"
  decimal _ := .finite 0

namespace Issued

variable (t : Issued)

/-- Reads the two documents of the token and no other. -/
def read (text : String) : Option Json := [t.header, t.payload].find? fun j => j.text == text

def python : Python where
  toSdk := .sample (utf8 t.message)
  urlsafeB64decode := decodePadded urlSafe
  jsonLoads b := (ofUtf8? b).bind t.read
  time := 0

def typescript : TypeScript where
  toSdk := .sample (utf8 t.message)
  bufferFrom s := (decodeUnpadded urlSafe s).getD []
  bufferToString b := (ofUtf8? b).getD ""
  jsonParse := t.read
  jsonParseString lit := some lit.tail.dropLast
  time := 0

def go : Go where
  toSdk := .sample (utf8 t.message)
  decodeString := decodeUnpadded urlSafe
  tokens b := (ofUtf8? b).bind t.read
  unmarshal b := (ofUtf8? b).bind t.read

def java : Java where
  toSdk := .sample (Java.asciiBytes t.message)
  urlDecode := decodePadded urlSafe
  newString b := (ofUtf8? b).getD ""
  strictReader := t.read
  fromJson := t.read

theorem read_header : t.read t.header.text = some t.header := by
  simp [read]

variable {t}

theorem read_payload (h : t.header.text ≠ t.payload.text) : t.read t.payload.text = some t.payload := by
  simp [read, h]

/-- A token all four of these platforms read. -/
structure Readable (t : Issued) : Prop where
  apart : t.header.text ≠ t.payload.text
  objects : t.header.isObj = true ∧ t.payload.isObj = true
  headerKeys : t.header.distinctKeys = true
  payloadKeys : t.payload.distinctKeys = true
  headerScan : t.typescript.jsonHasDuplicateKey t.header.text = some false
  payloadScan : t.typescript.jsonHasDuplicateKey t.payload.text = some false
  key : t.key.length = 32
  sig : t.sig ≠ []

theorem decodePadded_urlSafe (b : Bytes) : decodePadded urlSafe (encodePadded urlSafe b) = some b :=
  decodePadded_encodePadded urlSafe_lawful rfl b

theorem decodeUnpadded_b64urlNoPad (b : Bytes) : decodeUnpadded urlSafe (b64urlNoPad b) = some b :=
  decodeUnpadded_encodeUnpadded urlSafe_lawful b

theorem Readable.bytes (h : t.Readable) : (ofUtf8? (utf8 t.header.text)).bind t.read = some t.header ∧
    (ofUtf8? (utf8 t.payload.text)).bind t.read = some t.payload := by
  rw [ofUtf8?_utf8, ofUtf8?_utf8]
  exact ⟨t.read_header, read_payload h.apart⟩

theorem Readable.python (h : t.Readable) :
    t.python.readToken (aidFromPubkey t.key) t.compact = some (t.header, t.payload) :=
  Python.readToken_issued decodePadded_urlSafe h.bytes.1 h.bytes.2 h.headerKeys h.payloadKeys (beq_self_eq_true _)

theorem Readable.typescript (h : t.Readable) :
    t.typescript.readToken (aidFromPubkey t.key) t.compact = some (t.header, t.payload) := by
  apply TypeScript.readToken_issued _ _ t.read_header (read_payload h.apart) h.headerScan h.payloadScan h.objects
    (beq_self_eq_true _)
  · intro b
    simp [Issued.typescript, decodeUnpadded_b64urlNoPad]
  · intro s
    simp [Issued.typescript, ofUtf8?_utf8]

theorem Readable.go (h : t.Readable) : t.go.readToken (aidFromPubkey t.key) t.compact = some (t.header, t.payload) :=
  Go.readToken_issued decodeUnpadded_b64urlNoPad ⟨h.bytes.1, h.bytes.1⟩ ⟨h.bytes.2, h.bytes.2⟩ h.headerKeys h.payloadKeys
    h.key (beq_self_eq_true _)

theorem Readable.java (h : t.Readable) :
    t.java.readToken (aidFromPubkey t.key) t.compact = some (t.header, t.payload) := by
  apply Java.readToken_issued decodePadded_urlSafe _ ⟨t.read_header, t.read_header⟩
    ⟨read_payload h.apart, read_payload h.apart⟩ h.headerKeys h.payloadKeys h.key h.sig (beq_self_eq_true _)
  intro s
  simp [Issued.java, ofUtf8?_utf8]

end Issued

end SeamSdk
