/-
**Signed requests.**

`hmac` is the keyed hash of RFC 2104 over a hash with blocks of 64 bytes. `authentic` is what a service that
checks Signature Version 4 does with a request: it takes the `Authorization` header apart, rebuilds the canonical
request from what it received, and compares the signature with its own.

* `readAuthorization_text`: the header is taken apart into what it was put together of;
* `canonicalUri_parts`: a path whose segments are percent-encoded is canonical already;
* `authentic_signed`: a request with the signature of its own canonical request is authentic.
-/

import RivetCache.Library.Percent
import RivetCache.Library.Reader

set_option linter.unusedSectionVars false

namespace Library

/-! ### A keyed hash -/

section

variable (hash : List UInt8 → List UInt8)

/-- The block of a key: hashed where it is longer than a block, and filled up with zeros. -/
def hmacBlock (key : List UInt8) : List UInt8 :=
  let short := if key.length > 64 then hash key else key
  short ++ List.replicate (64 - short.length) 0

/-- **The keyed hash** of some bytes. -/
def hmac (key data : List UInt8) : List UInt8 :=
  hash ((hmacBlock hash key).map (· ^^^ 0x5c) ++ hash ((hmacBlock hash key).map (· ^^^ 0x36) ++ data))

end

/-- Lower-case hexadecimal digits. -/
def hexDigits (bytes : List UInt8) : List UInt8 :=
  bytes.flatMap fun byte => [lowerHex (byte.toNat / 16), lowerHex (byte.toNat % 16)]
where
  lowerHex (n : Nat) : UInt8 := UInt8.ofNat (if n < 10 then 48 + n else 87 + n)

theorem hexDigits_solid {bytes : List UInt8} {byte : UInt8} (among : byte ∈ hexDigits bytes) : byte ≠ 32 := by
  obtain ⟨source, _, digit⟩ := List.mem_flatMap.mp among
  have bound := source.toNat_lt
  have solid : ∀ n < 16, hexDigits.lowerHex n ≠ 32 := by decide
  simp only [List.mem_cons, List.not_mem_nil, or_false] at digit
  rcases digit with rfl | rfl
  · exact solid _ (by omega)
  · exact solid _ (by omega)

/-! ### Requests -/

/-- A request as it is received: header names may be of either case. -/
structure SignedRequest where
  method : List UInt8
  target : List UInt8
  headers : List (List UInt8 × List UInt8)
  body : List UInt8

/-- An ASCII letter in lower case. -/
def lowerByte (byte : UInt8) : UInt8 := if 65 ≤ byte ∧ byte ≤ 90 then byte + 32 else byte

/-- The first header of a name, which is in lower case. -/
def SignedRequest.header (request : SignedRequest) (name : List UInt8) : Option (List UInt8) :=
  (request.headers.find? fun header => header.1.map lowerByte == name).map Prod.snd

/-- Runs of spaces become one space. -/
def squeezeSpaces : List UInt8 → List UInt8
  | 32 :: 32 :: rest => squeezeSpaces (32 :: rest)
  | byte :: rest => byte :: squeezeSpaces rest
  | [] => []

/-- The canonical value of a header: without spaces at its ends, and with single spaces inside. -/
def canonicalValue (value : List UInt8) : List UInt8 :=
  squeezeSpaces ((value.dropWhile (· == 32)).reverse.dropWhile (· == 32)).reverse

/-- The bytes that a percent-encoded text stands for. -/
def uriDecode : List UInt8 → List UInt8
  | 37 :: high :: low :: rest =>
      match hexDigitValue high, hexDigitValue low with
      | some first, some second => UInt8.ofNat (16 * first + second) :: uriDecode rest
      | _, _ => 37 :: uriDecode (high :: low :: rest)
  | byte :: rest => byte :: uriDecode rest
  | [] => []

/-- The canonical form of a path: each segment is encoded once. -/
def canonicalUri (target : List UInt8) : List UInt8 :=
  [47].intercalate ((target.splitOn 47).map fun segment => percentEncode (uriDecode segment))

/-- The line of a header. -/
def headerLine (name value : List UInt8) : List UInt8 := name ++ 58 :: canonicalValue value ++ [10]

/-- The lines of the headers that are signed. -/
def SignedRequest.headerLines (request : SignedRequest) (signed : List (List UInt8)) : Option (List UInt8) :=
  (signed.mapM fun name => (request.header name).map (headerLine name)).map List.flatten

/-- **The canonical request**, of a request with no query. -/
def canonicalRequest (request : SignedRequest) (lines : List UInt8) (signed : List (List UInt8))
    (sum : List UInt8) : List UInt8 :=
  request.method ++ 10 :: canonicalUri request.target ++ 10 :: 10 :: lines ++
    10 :: [59].intercalate signed ++ 10 :: sum

/-! ### The header -/

/-- What an `Authorization` header tells. -/
structure Authorization where
  accessKey : List UInt8
  date : List UInt8
  region : List UInt8
  service : List UInt8
  signed : List (List UInt8)
  signature : List UInt8

namespace Authorization

/-- The scope of a credential. -/
def scope (authorization : Authorization) : List UInt8 :=
  [47].intercalate [authorization.date, authorization.region, authorization.service, utf8Bytes "aws4_request"]

/-- The text of the header. -/
def text (authorization : Authorization) : List UInt8 :=
  [32].intercalate [utf8Bytes "AWS4-HMAC-SHA256",
    utf8Bytes "Credential=" ++ [47].intercalate [authorization.accessKey, authorization.date, authorization.region,
      authorization.service, utf8Bytes "aws4_request"] ++ [44],
    utf8Bytes "SignedHeaders=" ++ [59].intercalate authorization.signed ++ [44],
    utf8Bytes "Signature=" ++ authorization.signature]

end Authorization

/-- What stands between two texts. -/
def between (front back text : List UInt8) : Option (List UInt8) :=
  if front <+: text ∧ back <:+ text.drop front.length then
    some ((text.drop front.length).take ((text.drop front.length).length - back.length))
  else none

/-- **A header is taken apart.** -/
def readAuthorization (text : List UInt8) : Option Authorization :=
  match text.splitOn 32 with
  | [algorithm, credential, signed, signature] => do
      guard (algorithm = utf8Bytes "AWS4-HMAC-SHA256")
      let credential ← between (utf8Bytes "Credential=") [44] credential
      let signed ← between (utf8Bytes "SignedHeaders=") [44] signed
      let signature ← between (utf8Bytes "Signature=") [] signature
      match credential.splitOn 47 with
      | [accessKey, date, region, service, terminator] => do
          guard (terminator = utf8Bytes "aws4_request")
          some ⟨accessKey, date, region, service, signed.splitOn 59, signature⟩
      | _ => none
  | _ => none

/-! ### The service -/

section

variable (hash : List UInt8 → List UInt8)

/-- The text that is signed. -/
def stringToSign (time scope canonical : List UInt8) : List UInt8 :=
  utf8Bytes "AWS4-HMAC-SHA256" ++ 10 :: time ++ 10 :: scope ++ 10 :: hexDigits (hash canonical)

/-- The key of a scope. -/
def signingKey (secret date region service : List UInt8) : List UInt8 :=
  hmac hash (hmac hash (hmac hash (hmac hash (utf8Bytes "AWS4" ++ secret) date) region) service)
    (utf8Bytes "aws4_request")

/-- **The signature** of a canonical request. -/
def signatureOf (secret time : List UInt8) (authorization : Authorization) (canonical : List UInt8) : List UInt8 :=
  hexDigits (hmac hash (signingKey hash secret authorization.date authorization.region authorization.service)
    (stringToSign hash time authorization.scope canonical))

/-- The headers that have to be signed are: the host, and those of the service. -/
def signsEnough (request : SignedRequest) (signed : List (List UInt8)) : Bool :=
  signed.contains (utf8Bytes "host") && request.headers.all fun header =>
    !(utf8Bytes "x-amz-").isPrefixOf (header.1.map lowerByte) || signed.contains (header.1.map lowerByte)

/-- **A request is authentic**: the body is the one announced, the day is the one of the credential, enough is
signed, and the signature is that of the canonical request. -/
def authentic (secretOf : List UInt8 → Option (List UInt8)) (request : SignedRequest) : Bool :=
  (do
    let authorization ← (request.header (utf8Bytes "authorization")).bind readAuthorization
    let secret ← secretOf authorization.accessKey
    let time ← request.header (utf8Bytes "x-amz-date")
    let sum ← request.header (utf8Bytes "x-amz-content-sha256")
    let lines ← request.headerLines authorization.signed
    guard (sum = hexDigits (hash request.body))
    guard (authorization.date <+: time)
    guard (signsEnough request authorization.signed)
    guard (authorization.signature =
      signatureOf hash secret time authorization (canonicalRequest request lines authorization.signed sum))
    some ()).isSome

end

/-! ### What is read back -/

theorem between_self (front middle back : List UInt8) : between front back (front ++ middle ++ back) = some middle := by
  unfold between
  rw [List.append_assoc, List.drop_left, if_pos ⟨List.prefix_append _ _, List.suffix_append _ _⟩,
    List.length_append, Nat.add_sub_cancel, List.take_left]

/-- A part of the header: no space, and in the credential no slash. -/
structure Authorization.Plain (authorization : Authorization) : Prop where
  accessKey : ∀ byte ∈ authorization.accessKey, byte ≠ 32 ∧ byte ≠ 47
  date : ∀ byte ∈ authorization.date, byte ≠ 32 ∧ byte ≠ 47
  region : ∀ byte ∈ authorization.region, byte ≠ 32 ∧ byte ≠ 47
  service : ∀ byte ∈ authorization.service, byte ≠ 32 ∧ byte ≠ 47
  signed : ∀ name ∈ authorization.signed, ∀ byte ∈ name, byte ≠ 32 ∧ byte ≠ 59
  some_ : authorization.signed ≠ []
  signature : ∀ byte ∈ authorization.signature, byte ≠ 32

/-- What is among parts put together. -/
theorem mem_intercalate {separator byte : UInt8} {parts : List (List UInt8)}
    (among : byte ∈ [separator].intercalate parts) : byte = separator ∨ ∃ part ∈ parts, byte ∈ part := by
  induction parts with
  | nil => cases among
  | cons part parts ih =>
      cases parts with
      | nil =>
          rw [List.intercalate_singleton] at among
          exact Or.inr ⟨part, List.mem_cons_self, among⟩
      | cons next parts =>
          rw [List.intercalate_cons_cons, List.mem_append, List.mem_append, List.mem_singleton] at among
          rcases among with (inside | same) | later
          · exact Or.inr ⟨part, List.mem_cons_self, inside⟩
          · exact Or.inl same
          · rcases ih later with same | ⟨other, inside, there⟩
            · exact Or.inl same
            · exact Or.inr ⟨other, List.mem_cons_of_mem _ inside, there⟩

/-- Solid parts put together are solid. -/
theorem solid_intercalate {separator : UInt8} {parts : List (List UInt8)} (apart : separator ≠ 32)
    (solid : ∀ part ∈ parts, (32 : UInt8) ∉ part) : (32 : UInt8) ∉ [separator].intercalate parts := by
  intro among
  rcases mem_intercalate among with same | ⟨part, inside, there⟩
  · exact apart same.symm
  · exact solid part inside there

/-- The fields of a credential. -/
def Authorization.credential (authorization : Authorization) : List (List UInt8) :=
  [authorization.accessKey, authorization.date, authorization.region, authorization.service,
    utf8Bytes "aws4_request"]

namespace Authorization.Plain

variable {authorization : Authorization}

theorem credential (plain : authorization.Plain) :
    ∀ field ∈ authorization.credential, (32 : UInt8) ∉ field ∧ (47 : UInt8) ∉ field := by
  have terminator : (32 : UInt8) ∉ utf8Bytes "aws4_request" ∧ (47 : UInt8) ∉ utf8Bytes "aws4_request" := by decide
  have apart : ∀ {field : List UInt8}, (∀ byte ∈ field, byte ≠ 32 ∧ byte ≠ 47) →
      (32 : UInt8) ∉ field ∧ (47 : UInt8) ∉ field :=
    fun each => ⟨fun there => (each _ there).1 rfl, fun there => (each _ there).2 rfl⟩
  intro field inside
  simp only [Authorization.credential, List.mem_cons, List.not_mem_nil, or_false] at inside
  rcases inside with rfl | rfl | rfl | rfl | rfl
  · exact apart plain.accessKey
  · exact apart plain.date
  · exact apart plain.region
  · exact apart plain.service
  · exact terminator

/-- The fields are found again between the slashes. -/
theorem fields (plain : authorization.Plain) :
    ([47].intercalate authorization.credential).splitOn 47 = authorization.credential :=
  List.splitOn_intercalate 47 (fun field inside => (plain.credential field inside).2) (List.cons_ne_nil _ _)

/-- The names are found again between the semicolons. -/
theorem names (plain : authorization.Plain) :
    ([59].intercalate authorization.signed).splitOn 59 = authorization.signed :=
  List.splitOn_intercalate 59 (fun name inside there => (plain.signed name inside _ there).2 rfl) plain.some_

/-- The parts of the header are found again between the spaces. -/
theorem parts (plain : authorization.Plain) :
    authorization.text.splitOn 32 = [utf8Bytes "AWS4-HMAC-SHA256",
      utf8Bytes "Credential=" ++ [47].intercalate authorization.credential ++ [44],
      utf8Bytes "SignedHeaders=" ++ [59].intercalate authorization.signed ++ [44],
      utf8Bytes "Signature=" ++ authorization.signature] := by
  have algorithm : (32 : UInt8) ∉ utf8Bytes "AWS4-HMAC-SHA256" := by decide
  have labels : (32 : UInt8) ∉ utf8Bytes "Credential=" ∧ (32 : UInt8) ∉ utf8Bytes "SignedHeaders=" ∧
      (32 : UInt8) ∉ utf8Bytes "Signature=" ∧ (32 : UInt8) ∉ ([44] : List UInt8) := by decide
  have credential : (32 : UInt8) ∉ [47].intercalate authorization.credential :=
    solid_intercalate (by decide) fun field inside => (plain.credential field inside).1
  have signed : (32 : UInt8) ∉ [59].intercalate authorization.signed :=
    solid_intercalate (by decide) fun name inside there => (plain.signed name inside _ there).1 rfl
  refine List.splitOn_intercalate 32 ?_ (List.cons_ne_nil _ _)
  intro part inside among
  simp only [List.mem_cons, List.not_mem_nil, or_false] at inside
  rcases inside with rfl | rfl | rfl | rfl
  · exact algorithm among
  · rcases List.mem_append.mp among with front | comma
    · exact (List.mem_append.mp front).elim labels.1 credential
    · exact labels.2.2.2 comma
  · rcases List.mem_append.mp among with front | comma
    · exact (List.mem_append.mp front).elim labels.2.1 signed
    · exact labels.2.2.2 comma
  · exact (List.mem_append.mp among).elim labels.2.2.1 fun there => plain.signature _ there rfl

end Authorization.Plain

/-- **The header is read back.** -/
theorem readAuthorization_text {authorization : Authorization} (plain : authorization.Plain) :
    readAuthorization authorization.text = some authorization := by
  have signature : between (utf8Bytes "Signature=") [] (utf8Bytes "Signature=" ++ authorization.signature) =
      some authorization.signature := by
    have whole := between_self (utf8Bytes "Signature=") authorization.signature []
    rwa [List.append_nil] at whole
  have fields := plain.fields
  unfold Authorization.credential at fields
  unfold readAuthorization
  rw [plain.parts]
  simp only [between_self, signature, fields, plain.names, Authorization.credential, guard, if_true,
    Option.pure_def, Option.bind_eq_bind, Option.bind_some]

/-- **An encoded text is decoded.** -/
theorem uriDecode_percentEncode (bytes : List UInt8) : uriDecode (percentEncode bytes) = bytes := by
  have plainly : ∀ (byte : UInt8) rest, byte ≠ 37 → uriDecode (byte :: rest) = byte :: uriDecode rest := by
    intro byte rest other
    rw [uriDecode.eq_def]
    split
    · next same => exact absurd (List.cons.inj same).1 other
    · next same => rw [(List.cons.inj same).1, (List.cons.inj same).2]
    · next same => cases same
  induction bytes with
  | nil => rfl
  | cons byte bytes ih =>
      show uriDecode (percentByte byte ++ percentEncode bytes) = _
      unfold percentByte
      by_cases plain : unreserved byte = true
      · rw [if_pos plain, List.singleton_append, plainly _ _ (by rintro rfl; exact absurd plain (by decide)), ih]
      · have bound := byte.toNat_lt
        rw [if_neg plain, List.cons_append, List.cons_append, List.singleton_append, uriDecode,
          hexDigitValue_upperHex (n := byte.toNat / 16) (by omega),
          hexDigitValue_upperHex (n := byte.toNat % 16) (by omega)]
        dsimp only
        rw [ih, Nat.div_add_mod, UInt8.ofNat_toNat]

/-- Parts put together, and others. -/
theorem intercalate_append {separator : UInt8} {front back : List (List UInt8)} (some_ : front ≠ [])
    (more : back ≠ []) :
    [separator].intercalate (front ++ back) =
      [separator].intercalate front ++ separator :: [separator].intercalate back := by
  induction front with
  | nil => exact absurd rfl some_
  | cons part front ih =>
      cases front with
      | nil =>
          rw [List.singleton_append, List.intercalate_cons_of_ne_nil more, List.intercalate_singleton]
          simp
      | cons next front =>
          have rest := ih (List.cons_ne_nil _ _)
          rw [List.cons_append, List.intercalate_cons_of_ne_nil (by simp), rest,
            List.intercalate_cons_of_ne_nil (List.cons_ne_nil _ _)]
          simp

/-- A path is canonical segment by segment. -/
theorem canonicalUri_join (front back : List UInt8) :
    canonicalUri (front ++ 47 :: back) = canonicalUri front ++ 47 :: canonicalUri back := by
  unfold canonicalUri
  rw [List.splitOn_append_cons_self, List.map_append, intercalate_append (by simp) (by simp)]

/-- An unreserved text is its own encoding. -/
theorem percentEncode_plain {bytes : List UInt8} (plain : ∀ byte ∈ bytes, unreserved byte = true) :
    percentEncode bytes = bytes := by
  induction bytes with
  | nil => rfl
  | cons byte bytes ih =>
      show percentByte byte ++ percentEncode bytes = _
      rw [percentByte, if_pos (plain byte List.mem_cons_self),
        ih fun other inside => plain other (List.mem_cons_of_mem _ inside)]
      rfl

/-- **A segment that is encoded is canonical.** -/
theorem canonicalUri_encoded (bytes : List UInt8) : canonicalUri (percentEncode bytes) = percentEncode bytes := by
  have apart : (47 : UInt8) ∉ percentEncode bytes := by
    intro slash
    rcases mem_percentEncode slash with plain | same
    · exact absurd plain (by decide)
    · cases same
  unfold canonicalUri
  rw [List.splitOn_eq_singleton apart, List.map_singleton, List.intercalate_singleton, uriDecode_percentEncode]

/-- A path of canonical parts is canonical. -/
theorem canonicalUri_parts {parts : List (List UInt8)} (some_ : parts ≠ [])
    (each : ∀ part ∈ parts, canonicalUri part = part) :
    canonicalUri ([47].intercalate parts) = [47].intercalate parts := by
  induction parts with
  | nil => exact absurd rfl some_
  | cons part parts ih =>
      by_cases last : parts = []
      · subst last
        rw [List.intercalate_singleton]
        exact each part List.mem_cons_self
      · have rest := ih last fun other inside => each other (List.mem_cons_of_mem _ inside)
        have split : [47].intercalate (part :: parts) = part ++ 47 :: [47].intercalate parts := by
          have both : [47].intercalate ([part] ++ parts) = _ :=
            intercalate_append (List.cons_ne_nil part []) last
          rwa [List.singleton_append, List.intercalate_singleton] at both
        rw [split, canonicalUri_join, rest, each part List.mem_cons_self]

/-- A path of unreserved segments is canonical. -/
theorem canonicalUri_plain {bytes : List UInt8} (plain : ∀ byte ∈ bytes, unreserved byte = true ∨ byte = 47) :
    canonicalUri bytes = bytes := by
  induction size : bytes.length using Nat.strong_induction_on generalizing bytes with
  | _ size ih =>
    by_cases slash : (47 : UInt8) ∈ bytes
    · obtain ⟨front, back, rfl, apart⟩ := List.eq_append_cons_of_mem slash
      have solid : ∀ byte ∈ front, unreserved byte = true := by
        intro byte there
        rcases plain byte (List.mem_append_left _ there) with fine | rfl
        · exact fine
        · exact absurd there apart
      have rest := ih back.length (by rw [← size, List.length_append, List.length_cons]; omega)
        (fun byte there => plain byte (List.mem_append_right _ (List.mem_cons_of_mem _ there))) rfl
      have first := canonicalUri_encoded front
      rw [percentEncode_plain solid] at first
      rw [canonicalUri_join, first, rest]
    · have solid : ∀ byte ∈ bytes, unreserved byte = true := by
        intro byte there
        rcases plain byte there with fine | rfl
        · exact fine
        · exact absurd there slash
      have whole := canonicalUri_encoded bytes
      rwa [percentEncode_plain solid] at whole

/-- A value with no space is canonical. -/
theorem canonicalValue_solid {value : List UInt8} (solid : (32 : UInt8) ∉ value) : canonicalValue value = value := by
  have whole : ∀ {value : List UInt8}, (32 : UInt8) ∉ value → value.dropWhile (· == 32) = value := by
    intro value solid
    cases value with
    | nil => rfl
    | cons byte value =>
        refine List.dropWhile_cons_of_neg ?_
        rw [beq_iff_eq]
        rintro rfl
        exact solid List.mem_cons_self
  have single : ∀ {value : List UInt8}, (32 : UInt8) ∉ value → squeezeSpaces value = value := by
    intro value solid
    induction value with
    | nil => rfl
    | cons byte value ih =>
        rw [List.mem_cons, not_or] at solid
        rw [squeezeSpaces.eq_def]
        split
        · next same => exact absurd (List.cons.inj same).1.symm solid.1
        · next same =>
            obtain ⟨rfl, rfl⟩ := List.cons.inj same
            rw [ih solid.2]
        · next same => cases same
  unfold canonicalValue
  rw [whole solid, whole (by rwa [List.mem_reverse]), List.reverse_reverse, single solid]

/-- **A header is found** under its name, where no two have the same. -/
theorem SignedRequest.header_of_mem {request : SignedRequest} {name value shown : List UInt8}
    (distinct : (request.headers.map fun header => header.1.map lowerByte).Nodup)
    (inside : (shown, value) ∈ request.headers) (lower : shown.map lowerByte = name) :
    request.header name = some value := by
  unfold header
  generalize request.headers = headers at distinct inside
  induction headers with
  | nil => cases inside
  | cons header headers ih =>
      rw [List.map_cons, List.nodup_cons] at distinct
      rcases List.mem_cons.mp inside with rfl | later
      · rw [List.find?_cons_of_pos (by rw [lower, beq_self_eq_true])]
        rfl
      · rw [List.find?_cons_of_neg, ih distinct.2 later]
        rw [beq_iff_eq, ← lower]
        exact fun same => distinct.1 (List.mem_map.mpr ⟨_, later, same.symm⟩)

/-- The lines of headers that are there. -/
theorem SignedRequest.headerLines_of_mem {request : SignedRequest} {listed : List (List UInt8 × List UInt8)}
    (there : ∀ header ∈ listed, request.header header.1 = some header.2) :
    request.headerLines (listed.map Prod.fst) = some (listed.flatMap fun header => headerLine header.1 header.2) := by
  have each : (listed.map Prod.fst).mapM (fun name => (request.header name).map (headerLine name)) =
      some (listed.map fun header => headerLine header.1 header.2) := by
    induction listed with
    | nil => rfl
    | cons header listed ih =>
        rw [List.map_cons, List.mapM_cons, there header List.mem_cons_self,
          ih fun other inside => there other (List.mem_cons_of_mem _ inside)]
        rfl
  unfold headerLines
  rw [each, Option.map_some, ← List.flatMap_def]

/-! ### Signed requests are authentic -/

/-- **A signed request is authentic**: its `Authorization` header is plain, names the secret it is signed with
and the headers that are there, and has the signature of the canonical request. -/
theorem authentic_signed {hash : List UInt8 → List UInt8} {secretOf : List UInt8 → Option (List UInt8)}
    {request : SignedRequest} {authorization : Authorization} {secret time lines : List UInt8}
    (plain : authorization.Plain) (told : request.header (utf8Bytes "authorization") = some authorization.text)
    (known : secretOf authorization.accessKey = some secret)
    (timed : request.header (utf8Bytes "x-amz-date") = some time)
    (summed : request.header (utf8Bytes "x-amz-content-sha256") = some (hexDigits (hash request.body)))
    (there : request.headerLines authorization.signed = some lines)
    (day : authorization.date <+: time) (enough : signsEnough request authorization.signed = true)
    (signature : authorization.signature = signatureOf hash secret time authorization
      (canonicalRequest request lines authorization.signed (hexDigits (hash request.body)))) :
    authentic hash secretOf request = true := by
  unfold authentic
  rw [told, Option.bind_some, readAuthorization_text plain, timed, summed]
  simp only [Option.bind_eq_bind, Option.bind_some, known, there, guard, day, enough, ← signature, if_true]
  rfl

end Library
