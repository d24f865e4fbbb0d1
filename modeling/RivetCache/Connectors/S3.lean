/-
**`connectors.rs`: a tier on an S3 service.**

The entries of a tier are the objects of a bucket under `prefix/cache_key`, each an envelope. A request is signed
with Signature Version 4, and an `HttpClient` carries it out; the clock that dates it is injected as well.

* `hmacSha256_eq`: the keyed hash of the source is the one of RFC 2104;
* `s3Signature_eq`: the signature is the one of the scope of a request.
-/

import RivetCache.Connectors.Envelope
import RivetCache.Connectors.Timestamp
import RivetCache.Control.Query
import RivetCache.Library.Signature

set_option linter.unusedSectionVars false

namespace RivetCache

open Library

/-! ### The client -/

/-- `HttpRequest`. -/
structure HttpRequest where
  method : String
  scheme : String
  authority : String
  path : String
  headers : List (String × String)
  body : List UInt8

/-- `HttpResponse`. -/
structure HttpResponse where
  status : UInt16
  headers : List (String × String)
  body : List UInt8

/-- `HttpClient`, over the state of an implementation. -/
structure HttpClient (σ : Type) where
  execute : HttpRequest → σ → Except IoError HttpResponse × σ

/-- `S3Clock`: the date and the time of a request. -/
structure S3Clock (σ : Type) where
  timestamp : σ → Except IoError (String × String) × σ

/-! ### The endpoint -/

/-- `Endpoint`. -/
structure Endpoint where
  scheme : String
  authority : String
  basePath : String

/-- What is before the first `://`, and what is after it. -/
def splitScheme : List Char → Option (List Char × List Char)
  | [] => none
  | char :: rest =>
      if [':', '/', '/'] <+: char :: rest then some ([], rest.drop 2)
      else (splitScheme rest).map fun sides => (char :: sides.1, sides.2)

/-- `str::trim_matches('/')`. -/
def trimSlashes (text : List Char) : List Char :=
  ((text.dropWhile (· == '/')).reverse.dropWhile (· == '/')).reverse

/-- `Endpoint::parse`. -/
def Endpoint.parse (value : String) : Except IoError Endpoint :=
  match splitScheme value.toList with
  | none => .error ⟨.invalidInput, "S3 endpoint must include scheme://"⟩
  | some (scheme, rest) =>
      if String.ofList scheme ≠ "http" ∧ String.ofList scheme ≠ "https" then
        .error ⟨.invalidInput, "unsupported S3 endpoint scheme"⟩
      else
        let sides := (splitOnce '/' rest).getD (rest, [])
        let authority := String.ofList sides.1
        if authority.isEmpty || (utf8Bytes authority).any controlOrSpace then
          .error ⟨.invalidInput, "invalid S3 endpoint authority"⟩
        else .ok ⟨String.ofList scheme, authority, String.ofList (trimSlashes sides.2)⟩

/-! ### The signature -/

/-- `hmac_sha256`. -/
def hmacSha256 (digest : Digest) (key data : List UInt8) : Vector UInt8 32 :=
  let normalized :=
    if key.length > 64 then (digest key).toList ++ List.replicate 32 0
    else key ++ List.replicate (64 - key.length) 0
  let innerPad := List.zipWith (· ^^^ ·) (List.replicate 64 0x36) normalized
  let outerPad := List.zipWith (· ^^^ ·) (List.replicate 64 0x5c) normalized
  digest (outerPad ++ (digest (innerPad ++ data)).toList)

/-- `s3_signature`. -/
def s3Signature (digest : Digest) (secret date region : String) (stringToSign : List UInt8) : Vector UInt8 32 :=
  let keyDate := hmacSha256 digest (utf8Bytes ("AWS4" ++ secret)) (utf8Bytes date)
  let keyRegion := hmacSha256 digest keyDate.toList (utf8Bytes region)
  let keyService := hmacSha256 digest keyRegion.toList (utf8Bytes "s3")
  let keySigning := hmacSha256 digest keyService.toList (utf8Bytes "aws4_request")
  hmacSha256 digest keySigning.toList stringToSign

/-- A text of ASCII bytes. -/
def asciiText (bytes : List UInt8) : String := String.ofList (bytes.map fun byte => Char.ofNat byte.toNat)

/-- `hex::encode`, as a text. -/
def hexString (bytes : List UInt8) : String := asciiText (hexEncode bytes)

/-- `str::trim` of a text. -/
def trimText (text : String) : String :=
  String.ofList ((text.toList.dropWhile isWhitespace).reverse.dropWhile isWhitespace).reverse

/-! ### The tier -/

/-- `S3Credentials`. -/
structure S3Credentials where
  accessKey : String
  secretKey : String
  sessionToken : Option String

/-- `S3Config`. -/
structure S3Config where
  endpoint : String
  region : String
  bucket : String
  keyPrefix : String
  maxValueBytes : Nat

/-- `S3KvTier`. -/
structure S3KvTier (σ : Type) where
  name : String
  endpoint : Endpoint
  config : S3Config
  credentials : S3Credentials
  client : HttpClient σ
  clock : S3Clock σ

namespace S3KvTier

variable {σ : Type}

/-- `S3KvTier::with_clock`. -/
def withClock (name : String) (config : S3Config) (credentials : S3Credentials) (client : HttpClient σ)
    (clock : S3Clock σ) : Except IoError (S3KvTier σ) :=
  if isBlank name || isBlank config.region || isBlank config.bucket || config.maxValueBytes == 0 ||
      credentials.accessKey.isEmpty || credentials.secretKey.isEmpty then
    .error ⟨.invalidInput, "invalid S3 tier configuration"⟩
  else do
    let endpoint ← Endpoint.parse config.endpoint
    .ok ⟨name, endpoint, config, credentials, client, clock⟩

section

variable (digest : Digest) (tier : S3KvTier σ)

/-- What the paths of a tier begin with: the base path. -/
def baseParts : List String :=
  if tier.endpoint.basePath.isEmpty then [] else [String.ofList (trimSlashes tier.endpoint.basePath.toList)]

/-- `object_path`, the parts of the prefix. -/
def prefixParts : List String :=
  ((tier.config.keyPrefix.toList.splitOn '/').filter (!·.isEmpty)).map fun part =>
    percentPathSegment (String.ofList part)

/-- `object_path`, the parts before the key. -/
def folderParts : List String :=
  tier.baseParts ++ percentPathSegment tier.config.bucket :: tier.prefixParts

/-- `object_path`. -/
def objectPath (key : KvBlockKey) : String :=
  "/" ++ "/".intercalate (tier.folderParts ++ [asciiText (key.cacheKey digest)])

/-- `bucket_path`. -/
def bucketPath : String :=
  "/" ++ "/".intercalate (tier.baseParts ++ [percentPathSegment tier.config.bucket])

/-- `request`, the headers that are signed, by name. -/
def canonicalHeaders (payloadHash amzDate : String) : List (String × String) :=
  ([("host", tier.endpoint.authority), ("x-amz-content-sha256", payloadHash), ("x-amz-date", amzDate)] ++
    tier.credentials.sessionToken.toList.map fun token => ("x-amz-security-token", token)).insertionSort
      fun left right => left.1 ≤ right.1

/-- `request`, the names of the headers that are signed. -/
def signedHeaders (headers : List (String × String)) : String := ";".intercalate (headers.map Prod.fst)

/-- `request`, the lines of the headers. -/
def headerText (headers : List (String × String)) : String :=
  headers.foldl (fun text header => text ++ header.1 ++ ":" ++ trimText header.2 ++ "\n") ""

/-- `request`, the canonical request. -/
def canonicalText (method path payloadHash : String) (headers : List (String × String)) : String :=
  method ++ "\n" ++ path ++ "\n\n" ++ headerText headers ++ "\n" ++ signedHeaders headers ++ "\n" ++ payloadHash

/-- `request`, the scope of the credential. -/
def scopeText (date : String) : String := date ++ "/" ++ tier.config.region ++ "/s3/aws4_request"

/-- `request`, the text that is signed. -/
def signingText (date amzDate canonical : String) : String :=
  "AWS4-HMAC-SHA256\n" ++ amzDate ++ "\n" ++ tier.scopeText date ++ "\n" ++
    hexString (digest (utf8Bytes canonical)).toList

/-- `request`, the `Authorization` header. -/
def authorizationText (date amzDate canonical signed : String) : String :=
  "AWS4-HMAC-SHA256 Credential=" ++ tier.credentials.accessKey ++ "/" ++ tier.scopeText date ++
    ", SignedHeaders=" ++ signed ++ ", Signature=" ++
    hexString (s3Signature digest tier.credentials.secretKey date tier.config.region
      (utf8Bytes (tier.signingText digest date amzDate canonical))).toList

/-- `request`, what is sent at a time. -/
def signedRequest (stamp : String × String) (method path : String) (body : List UInt8) : HttpRequest :=
  let payloadHash := hexString (digest body).toList
  let headers := tier.canonicalHeaders payloadHash stamp.2
  let canonical := canonicalText method path payloadHash headers
  { method, scheme := tier.endpoint.scheme, authority := tier.endpoint.authority, path
    headers := headers ++
      [("Authorization", tier.authorizationText digest stamp.1 stamp.2 canonical (signedHeaders headers))]
    body }

/-- `request`. -/
def request (method path : String) (body : List UInt8) (state : σ) : Except IoError HttpResponse × σ :=
  andThen (tier.clock.timestamp state) fun stamp state =>
    tier.client.execute (tier.signedRequest digest stamp method path body) state

/-- `get`. -/
def get (key : KvBlockKey) (state : σ) : Except IoError (Option KvTierEntry) × σ :=
  andThen (tier.request digest "GET" (tier.objectPath digest key) [] state) fun response state =>
    (if response.status = 200 then
      (Connectors.decodeEntry key response.body tier.config.maxValueBytes).map some
    else if response.status = 404 then .ok none
    else .error ⟨.other, s!"S3 GET returned HTTP {response.status}"⟩, state)

/-- `put`. -/
def put (entry : KvTierEntry) (state : σ) : Except IoError Unit × σ :=
  match Connectors.encodeEntry entry with
  | .error error => (.error error, state)
  | .ok body =>
      if body.length > tier.config.maxValueBytes then
        (.error ⟨.invalidInput, "S3 KV entry exceeds configured limit"⟩, state)
      else
        andThen (tier.request digest "PUT" (tier.objectPath digest entry.block.key) body state) fun response state =>
          (if response.status = 200 ∨ response.status = 201 ∨ response.status = 204 then .ok ()
          else .error ⟨.other, s!"S3 PUT returned HTTP {response.status}"⟩, state)

/-- `remove`. -/
def remove (key : KvBlockKey) (state : σ) : Except IoError Unit × σ :=
  andThen (tier.request digest "DELETE" (tier.objectPath digest key) [] state) fun response state =>
    (if response.status = 200 ∨ response.status = 204 ∨ response.status = 404 then .ok ()
    else .error ⟨.other, s!"S3 DELETE returned HTTP {response.status}"⟩, state)

/-- `clear`. -/
def clear (state : σ) : Except IoError Unit × σ :=
  (.error ⟨.unsupported,
    "S3 tier intentionally does not bulk-delete a bucket/prefix through KvTier::clear"⟩, state)

/-- `health`. -/
def health (state : σ) : Except IoError Unit × σ :=
  andThen (tier.request digest "HEAD" tier.bucketPath [] state) fun response state =>
    (if response.status = 200 ∨ response.status = 204 then .ok ()
    else .error ⟨.other, s!"S3 health returned HTTP {response.status}"⟩, state)

/-- `impl KvTier for S3KvTier`. -/
def kvTier : KvTier σ where
  name := tier.name
  get := tier.get digest
  put := tier.put digest
  remove := tier.remove digest
  clear := clear
  health := tier.health digest

end

end S3KvTier

/-! ### The signature is the standard one -/

section

variable {digest : Digest} {bytes : List UInt8}

/-- The digest, as a hash of lists. -/
def hashOf (digest : Digest) (bytes : List UInt8) : List UInt8 := (digest bytes).toList

theorem zipWith_pad {block : List UInt8} (full : block.length = 64) (pad : UInt8) :
    List.zipWith (· ^^^ ·) (List.replicate 64 pad) block = block.map (· ^^^ pad) := by
  refine List.ext_getElem ?_ fun index below _ => ?_
  · rw [List.length_zipWith, List.length_replicate, List.length_map, full, Nat.min_self]
  · rw [List.getElem_zipWith, List.getElem_replicate, List.getElem_map, UInt8.xor_comm]

/-- **The keyed hash** is that of RFC 2104. -/
theorem hmacSha256_eq (digest : Digest) (key data : List UInt8) :
    (hmacSha256 digest key data).toList = hmac (hashOf digest) key data := by
  have block : (if key.length > 64 then (digest key).toList ++ List.replicate 32 0
      else key ++ List.replicate (64 - key.length) 0) = hmacBlock (hashOf digest) key := by
    unfold hmacBlock
    split
    · simp [hashOf]
    · rfl
  have full : (hmacBlock (hashOf digest) key).length = 64 := by
    rw [← block]
    split
    · simp
    · rw [List.length_append, List.length_replicate]
      omega
  unfold hmacSha256 hmac
  dsimp only
  rw [block, zipWith_pad full, zipWith_pad full]
  rfl

theorem s3Signature_eq (digest : Digest) (secret date region : String) (text : List UInt8) :
    (s3Signature digest secret date region text).toList =
      hmac (hashOf digest) (signingKey (hashOf digest) (utf8Bytes secret) (utf8Bytes date) (utf8Bytes region)
        (utf8Bytes "s3")) text := by
  unfold s3Signature signingKey
  simp only [hmacSha256_eq, utf8Bytes_append]

/-! ### Texts -/

theorem utf8Bytes_asciiText (ascii : ∀ byte ∈ bytes, byte.toNat < 128) : utf8Bytes (asciiText bytes) = bytes := by
  rw [asciiText, utf8Bytes_ascii, List.map_map]
  · have same := List.map_congr_left (f := fun byte : UInt8 => UInt8.ofNat (Char.ofNat byte.toNat).toNat)
      (g := id) (l := bytes) fun byte among => by
        rw [ofNat_toNat_ascii (ascii byte among), UInt8.ofNat_toNat]
        rfl
    exact same.trans (List.map_id _)
  · intro char among
    obtain ⟨byte, there, rfl⟩ := List.mem_map.mp among
    rw [ofNat_toNat_ascii (ascii byte there)]
    exact ascii byte there

theorem hexEncode_unreserved {byte : UInt8} (among : byte ∈ hexEncode bytes) : unreserved byte = true := by
  obtain ⟨source, _, digit⟩ := List.mem_flatMap.mp among
  have bound := source.toNat_lt
  have each : ∀ n < 16, unreserved (hexDigit n) = true := by decide
  simp only [List.mem_cons, List.not_mem_nil, or_false] at digit
  rcases digit with rfl | rfl
  · exact each _ (by omega)
  · exact each _ (by omega)

theorem utf8Bytes_hexString (bytes : List UInt8) : utf8Bytes (hexString bytes) = hexDigits bytes :=
  utf8Bytes_asciiText fun _ among => unreserved_ascii (hexEncode_unreserved among)

theorem utf8Bytes_intercalate (separator : String) (parts : List String) :
    utf8Bytes (separator.intercalate parts) = (utf8Bytes separator).intercalate (parts.map utf8Bytes) := by
  induction parts with
  | nil => rfl
  | cons part parts ih =>
      by_cases last : parts = []
      · subst last
        rw [String.intercalate_singleton, List.map_singleton, List.intercalate_singleton]
      · rw [String.intercalate_cons_of_ne_nil last, utf8Bytes_append, utf8Bytes_append, ih, List.map_cons,
          List.intercalate_cons_of_ne_nil (by simpa using last)]

/-- Text with no white space is not trimmed, and has no space. -/
theorem trimText_solid {text : String} (solid : ∀ char ∈ text.toList, isWhitespace char = false) :
    trimText text = text ∧ (32 : UInt8) ∉ utf8Bytes text := by
  refine ⟨?_, fun space => ?_⟩
  · have whole : ∀ {chars : List Char}, (∀ char ∈ chars, isWhitespace char = false) →
        chars.dropWhile isWhitespace = chars := by
      intro chars solid
      cases chars with
      | nil => rfl
      | cons char chars => exact List.dropWhile_cons_of_neg (by rw [solid char List.mem_cons_self]; simp)
    unfold trimText
    rw [whole solid, whole fun char among => solid char (List.mem_reverse.mp among), List.reverse_reverse,
      String.ofList_toList]
  · obtain ⟨char, there, same⟩ := mem_utf8Bytes_ascii (by decide) space
    have white := solid char there
    unfold isWhitespace at white
    rw [same] at white
    exact absurd white (by decide)

end

end RivetCache
