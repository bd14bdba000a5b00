import SeamSdk.Lib.Checked
import SeamSdk.Lib.Decimal
import SeamSdk.Lib.Search

/-!
# The target of an HTTP management call

A DPoP proof of a call to the management plane names its target, the `htu`: `https://`, the authority and the path of
the URL the request is sent to. Each SDK reads the URL by a grammar of its own rather than by its URL library:
`scheme "://" authority [path] ["?" query] ["#" fragment]`, where the authority is `host [":" port]`.

The model follows the four functions step by step, each with the searches its language has. A position that is not
found is -1 in all of them. The first check leaves visible ASCII only, so that the characters of Python, the UTF-16 units
of TypeScript and Java and the bytes of Go are the same items, and lower-casing is the one of ASCII.
-/

namespace SeamSdk

open Checked Search

open Decimal (natOf natText)

/-! ## What the SDKs share -/

namespace DpopError

def notVisible : String :=
  "url must be a non-empty visible-ASCII string (no spaces): percent-encode any other character, and send the " ++
    "request to that same encoded URL"

def notAbsolute : String := "url must be an absolute http:// or https:// URL"

def userinfo : String := "url must not carry userinfo"

def malformedIpv6 : String := "url has a malformed IPv6 literal"

def manyColons : String := "url has more than one ':' in its authority; bracket an IPv6 literal"

def noHost : String := "url has no host"

def invalidPort : String := "url has an invalid port"

end DpopError

open DpopError

/-- The pattern `[\x21-\x7e]+` on a whole text. -/
def tokenChars (s : List Char) : Bool := !s.isEmpty && s.all fun c => 0x21 ≤ c.toNat && c.toNat ≤ 0x7e

/-- The pattern `[0-9]{1,5}` on a whole text. -/
def digits15 (s : List Char) : Bool := !s.isEmpty && s.length ≤ 5 && s.all Char.isDigit

def lower (s : List Char) : List Char := s.map Char.toLower

def http : List Char := ['h', 't', 't', 'p']

def https : List Char := ['h', 't', 't', 'p', 's']

def schemeEnd : List Char := [':', '/', '/']

def authorityEnds : List Char := ['/', '?', '#']

def pathEnds : List Char := ['?', '#']

/-- The port that needs no mention. -/
def defaultPort (scheme : List Char) : Nat := if scheme = https then 443 else 80

/-- A host in brackets, and what stands between it and the end of the authority. -/
def bracketedHost (authority : List Char) : Except String (List Char × List Char) := do
  let close := position [']'] authority
  refuse (close < 2) malformedIpv6
  let after := authority.drop (close + 1).toNat
  refuse (after ≠ [] ∧ ¬[':'].isPrefixOf after) malformedIpv6
  return (authority.take (close + 1).toNat, after)

/-! ## Python -/

namespace Python

/-- `s.partition(sep)`. -/
def partition (sep s : List Char) : List Char × List Char × List Char :=
  match indexOf sep s with
  | some i => (s.take i, sep, s.drop (i + sep.length))
  | none => (s, [], [])

/-- `min((i for i in (s.find(c) for c in chars) if i >= 0), default=len(s))`. -/
def firstOf (chars s : List Char) : Int := ((chars.map fun c => position [c] s).filter (0 ≤ ·)).min?.getD s.length

/-- The host and the text of the port. -/
def splitAuthority (authority : List Char) : Except String (List Char × List Char) :=
  if ['['].isPrefixOf authority then do
    let (host, after) ← bracketedHost authority
    return (host, if after ≠ [] then after.drop 1 else [])
  else do
    let (host, _, portText) := partition [':'] authority
    refuse (':' ∈ portText) manyColons
    return (host, portText)

/-- The port, if the URL has one. -/
def readPort (portText : List Char) : Except String (Option Nat) :=
  if portText ≠ [] then do
    refuse (5 < portText.length ∨ ¬portText.all Char.isDigit ∨ ¬portText.all (·.toNat < 128) ∨
      65535 < natOf portText) invalidPort
    return some (natOf portText)
  else return none

def mgmtDpopHttpHtu (url : List Char) : Except String (List Char) := do
  refuse (¬tokenChars url) notVisible
  let (scheme, sep, rest) := partition schemeEnd url
  let scheme := lower scheme
  refuse (sep = [] ∨ scheme ∉ [http, https]) notAbsolute
  let cut := firstOf authorityEnds rest
  let authority := rest.take cut.toNat
  let tail := rest.drop cut.toNat
  let path := tail.take (firstOf pathEnds tail).toNat
  refuse ('@' ∈ authority) userinfo
  let (host, portText) ← splitAuthority authority
  refuse (host = []) noHost
  let host := lower host
  let port ← readPort portText
  let authority := match port with
    | some port => if port ≠ defaultPort scheme then host ++ ':' :: natText port else host
    | none => host
  return https ++ schemeEnd ++ authority ++ (if path = [] then ['/'] else path)

end Python

/-! ## TypeScript -/

namespace TypeScript

def firstOf (chars s : List Char) : Int :=
  chars.foldl (fun k c => if 0 ≤ position [c] s ∧ position [c] s < k then position [c] s else k) s.length

/-- The host and the text of the port. -/
def splitAuthority (authority : List Char) : Except String (List Char × List Char) :=
  if ['['].isPrefixOf authority then do
    let (host, after) ← bracketedHost authority
    return (host, after.drop 1)
  else do
    let colon := position [':'] authority
    let host := if colon < 0 then authority else authority.take colon.toNat
    let portText := if colon < 0 then [] else authority.drop (colon + 1).toNat
    refuse (':' ∈ portText) manyColons
    return (host, portText)

/-- The port, if the URL has one. -/
def readPort (portText : List Char) : Except String (Option Nat) :=
  if portText ≠ [] then do
    refuse (¬digits15 portText ∨ 65535 < natOf portText) invalidPort
    return some (natOf portText)
  else return none

def mgmtDpopHttpHtu (url : List Char) : Except String (List Char) := do
  refuse (¬tokenChars url) notVisible
  let sepAt := position schemeEnd url
  let scheme := if sepAt < 0 then [] else lower (url.take sepAt.toNat)
  refuse (scheme ≠ http ∧ scheme ≠ https) notAbsolute
  let rest := url.drop (sepAt + 3).toNat
  let cut := firstOf authorityEnds rest
  let authority := rest.take cut.toNat
  let tail := rest.drop cut.toNat
  let path := tail.take (firstOf pathEnds tail).toNat
  refuse ('@' ∈ authority) userinfo
  let (host, portText) ← splitAuthority authority
  refuse (host = []) noHost
  let host := lower host
  let port ← readPort portText
  let auth := match port with
    | some port => if port ≠ defaultPort scheme then host ++ ':' :: natText port else host
    | none => host
  return https ++ schemeEnd ++ auth ++ (if path ≠ [] then path else ['/'])

end TypeScript

/-! ## Go -/

namespace Go

/-- `strings.Cut(s, sep)`. -/
def cut (sep s : List Char) : List Char × List Char × Bool :=
  match indexOf sep s with
  | some i => (s.take i, s.drop (i + sep.length), true)
  | none => (s, [], false)

/-- `strings.IndexAny(s, chars)`. -/
def indexAny (s chars : List Char) : Int := firstIndex (· ∈ chars) s

/-- The host and the text of the port. -/
def splitAuthority (authority : List Char) : Except String (List Char × List Char) :=
  if ['['].isPrefixOf authority then do
    let (host, after) ← bracketedHost authority
    return (host, if after ≠ [] then after.drop 1 else [])
  else do
    let (host, portText, hasColon) := cut [':'] authority
    refuse (hasColon ∧ ':' ∈ portText) manyColons
    return (host, portText)

/-- The host with its port, where that is not the default of the scheme. -/
def withPort (scheme host portText : List Char) : Except String (List Char) :=
  if portText ≠ [] then do
    refuse (¬digits15 portText) invalidPort
    let port := natOf portText
    refuse (65535 < port) invalidPort
    return if port ≠ defaultPort scheme then host ++ [':'] ++ natText port else host
  else return host

def httpHTU (rawURL : List Char) : Except String (List Char) := do
  refuse (¬tokenChars rawURL) notVisible
  let (scheme, rest, found) := cut schemeEnd rawURL
  let scheme := lower scheme
  refuse (¬found ∨ (scheme ≠ http ∧ scheme ≠ https)) notAbsolute
  let i := indexAny rest authorityEnds
  let cut := if 0 ≤ i then i.toNat else rest.length
  let authority := rest.take cut
  let tail := rest.drop cut
  let i := indexAny tail pathEnds
  let path := if 0 ≤ i then tail.take i.toNat else tail
  refuse ('@' ∈ authority) userinfo
  let (host, portText) ← splitAuthority authority
  refuse (host = []) noHost
  let auth ← withPort scheme (lower host) portText
  return https ++ schemeEnd ++ auth ++ (if path = [] then ['/'] else path)

end Go

/-! ## Java -/

namespace Java

/-- The loop over `s` leaves at the first character of `chars`. -/
def firstOf (s chars : List Char) : Int := firstIndex (fun c => 0 ≤ position [c] chars) s

/-- The host and the text of the port. -/
def splitAuthority (authority : List Char) : Except String (List Char × List Char) :=
  if ['['].isPrefixOf authority then do
    let (host, after) ← bracketedHost authority
    return (host, if after ≠ [] then after.drop 1 else [])
  else
    let colon := position [':'] authority
    let host := if colon < 0 then authority else authority.take colon.toNat
    if 0 ≤ colon then do
      let portText := authority.drop (colon + 1).toNat
      refuse (0 ≤ position [':'] portText) manyColons
      return (host, portText)
    else return (host, [])

/-- The host with its port, where that is not the default of the scheme. -/
def withPort (scheme host portText : List Char) : Except String (List Char) :=
  if portText ≠ [] then do
    refuse (¬digits15 portText ∨ 65535 < natOf portText) invalidPort
    let port := natOf portText
    return if port ≠ defaultPort scheme then host ++ [':'] ++ natText port else host
  else return host

def httpHtu (url : List Char) : Except String (List Char) := do
  refuse (¬tokenChars url) notVisible
  let sep := position schemeEnd url
  let scheme := if sep < 0 then [] else lower (url.take sep.toNat)
  refuse (sep < 0 ∨ (scheme ≠ http ∧ scheme ≠ https)) notAbsolute
  let rest := url.drop (sep + 3).toNat
  let cut := firstOf rest authorityEnds
  let authority := if cut < 0 then rest else rest.take cut.toNat
  let tail := if cut < 0 then [] else rest.drop cut.toNat
  let q := firstOf tail pathEnds
  let path := if q < 0 then tail else tail.take q.toNat
  refuse ('@' ∈ authority) userinfo
  let (host, portText) ← splitAuthority authority
  refuse (host = []) noHost
  let auth ← withPort scheme (lower host) portText
  return https ++ schemeEnd ++ auth ++ (if path = [] then ['/'] else path)

end Java

end SeamSdk
