/-
**Every request of an S3 tier is one that the service finds authentic.**

The service rebuilds the canonical request from what it receives (`authentic`); the tier signs the one that it has
put together. Where the credential has no separators in it and nothing that is signed has white space, the two are
the same (`request_authentic`): the path is percent-encoded segment by segment, the headers come in the order of
their names, and the keyed hash is the standard one.

* `awsTimestamp_stamped`: the clock of the crate gives a date and a time that are plain;
* `objectPath_canonical`, `bucketPath_canonical`: so are the paths of the tier.
-/

import RivetCache.Connectors.S3

set_option linter.unusedSectionVars false

namespace RivetCache

open Library

/-! ### What is received -/

/-- A request, as the service receives it. -/
def HttpRequest.received (request : HttpRequest) : SignedRequest where
  method := utf8Bytes request.method
  target := utf8Bytes request.path
  headers := request.headers.map fun header => (utf8Bytes header.1, utf8Bytes header.2)
  body := request.body

/-- No space and no slash. -/
def PlainText (text : String) : Prop := ∀ byte ∈ utf8Bytes text, byte ≠ 32 ∧ byte ≠ 47

theorem plainText_of_all {text : String}
    (all : (utf8Bytes text).all (fun byte => byte != 32 && byte != 47) = true) : PlainText text := by
  intro byte among
  have each := List.all_eq_true.mp all byte among
  rw [Bool.and_eq_true, bne_iff_ne, bne_iff_ne] at each
  exact each

/-- No white space. -/
def SolidText (text : String) : Prop := ∀ char ∈ text.toList, isWhitespace char = false

/-- **A date and a time**: the time begins with the date. -/
structure Stamped (stamp : String × String) : Prop where
  plain : PlainText stamp.1
  day : utf8Bytes stamp.1 <+: utf8Bytes stamp.2
  solid : SolidText stamp.2

/-- A padded number has digits only. -/
theorem mem_fixedDigits {width n : Nat} {char : Char} (among : char ∈ fixedDigits width n) :
    ∃ digit < 10, char = digit.digitChar := by
  induction width generalizing n with
  | zero => cases among
  | succ width ih =>
      rw [fixedDigits, List.mem_append, List.mem_singleton] at among
      exact among.elim ih fun last => ⟨n % 10, Nat.mod_lt _ (by decide), last⟩

/-- **`aws_timestamp` gives a date and a time.** -/
theorem awsTimestamp_stamped {seconds : UInt64} {stamp : String × String}
    (made : awsTimestamp seconds = .ok stamp) : Stamped stamp := by
  have each : ∀ digit < 10, (digit.digitChar.toNat < 128 ∧ isWhitespace digit.digitChar = false) ∧
      UInt8.ofNat digit.digitChar.toNat ≠ 32 ∧ UInt8.ofNat digit.digitChar.toNat ≠ 47 := by decide
  obtain ⟨date, _, computed⟩ := awsTimestamp_eq seconds
  rw [computed] at made
  split at made
  · cases made
    have digits : ∀ char ∈ dateDigits date, ∃ digit < 10, char = digit.digitChar := by
      rw [dateDigits_eq]
      exact fun char => mem_fixedDigits
    constructor
    · intro byte among
      dsimp only at among
      rw [utf8Bytes_ascii fun char there => by
        obtain ⟨digit, small, rfl⟩ := digits char there
        exact (each digit small).1.1] at among
      obtain ⟨char, there, rfl⟩ := List.mem_map.mp among
      obtain ⟨digit, small, rfl⟩ := digits char there
      exact (each digit small).2
    · unfold stampText
      rw [utf8Bytes_ofList, utf8Bytes_ofList, List.flatMap_append]
      exact List.prefix_append _ _
    · intro char among
      unfold stampText at among
      rw [String.toList_ofList, timeDigits_eq] at among
      simp only [List.mem_append, List.mem_cons, List.not_mem_nil, or_false] at among
      rcases among with day | rfl | time | rfl
      · obtain ⟨digit, small, rfl⟩ := digits char day
        exact (each digit small).1.2
      · decide
      · obtain ⟨digit, small, rfl⟩ := mem_fixedDigits time
        exact (each digit small).1.2
      · decide
  · cases made

/-- The digits of a hash have no white space. -/
theorem hexString_solid (bytes : List UInt8) : SolidText (hexString bytes) := by
  intro char among
  rw [hexString, asciiText, String.toList_ofList] at among
  obtain ⟨byte, there, rfl⟩ := List.mem_map.mp among
  have plain := hexEncode_unreserved there
  have small := unreserved_ascii plain
  have each : ∀ n < 128, unreserved (UInt8.ofNat n) = true → isWhitespace (Char.ofNat n) = false := by decide
  exact each byte.toNat small (by rw [UInt8.ofNat_toNat]; exact plain)

theorem utf8Bytes_headerText (headers : List (String × String)) :
    utf8Bytes (S3KvTier.headerText headers) =
      headers.flatMap fun header => utf8Bytes header.1 ++ 58 :: utf8Bytes (trimText header.2) ++ [10] := by
  have colon : utf8Bytes ":" = [58] := by decide
  have newline : utf8Bytes "\n" = [10] := by decide
  have each : ∀ (front : String), utf8Bytes (headers.foldl
      (fun text header => text ++ header.1 ++ ":" ++ trimText header.2 ++ "\n") front) =
        utf8Bytes front ++
          headers.flatMap fun header => utf8Bytes header.1 ++ 58 :: utf8Bytes (trimText header.2) ++ [10] := by
    induction headers with
    | nil => intro front; simp
    | cons header headers ih =>
        intro front
        rw [List.foldl_cons, ih, List.flatMap_cons]
        simp only [utf8Bytes_append, colon, newline, List.append_assoc, List.cons_append, List.nil_append]
  have whole := each ""
  rwa [show utf8Bytes "" = [] by decide, List.nil_append] at whole

theorem headerText_lines {headers : List (String × String)}
    (solid : ∀ header ∈ headers, trimText header.2 = header.2 ∧ (32 : UInt8) ∉ utf8Bytes header.2) :
    utf8Bytes (S3KvTier.headerText headers) =
      (headers.map fun header => (utf8Bytes header.1, utf8Bytes header.2)).flatMap fun header =>
        headerLine header.1 header.2 := by
  rw [utf8Bytes_headerText, List.flatMap_map]
  refine List.flatMap_congr fun header among => ?_
  unfold headerLine
  rw [(solid header among).1, canonicalValue_solid (solid header among).2]

namespace S3KvTier

variable {σ : Type} {digest : Digest} {tier : S3KvTier σ}

/-! ### The text that is signed -/

theorem utf8Bytes_canonicalText {method path payloadHash : String} {headers : List (String × String)}
    {request : SignedRequest} {sum : List UInt8} (methods : request.method = utf8Bytes method)
    (target : request.target = utf8Bytes path) (canonical : canonicalUri (utf8Bytes path) = utf8Bytes path)
    (summed : utf8Bytes payloadHash = sum) :
    utf8Bytes (canonicalText method path payloadHash headers) =
      canonicalRequest request (utf8Bytes (headerText headers)) (headers.map fun header => utf8Bytes header.1) sum := by
  have newline : utf8Bytes "\n" = [10] := by decide
  have two : utf8Bytes "\n\n" = [10, 10] := by decide
  have semicolon : utf8Bytes ";" = [59] := by decide
  unfold canonicalText canonicalRequest signedHeaders
  rw [methods, target, canonical, ← summed]
  simp only [utf8Bytes_append, utf8Bytes_intercalate, newline, two, semicolon, List.map_map, List.append_assoc,
    List.cons_append, List.nil_append]
  rfl

theorem utf8Bytes_scopeText (date : String) :
    utf8Bytes (tier.scopeText date) =
      [47].intercalate [utf8Bytes date, utf8Bytes tier.config.region, utf8Bytes "s3", utf8Bytes "aws4_request"] := by
  have slash : utf8Bytes "/" = [47] := by decide
  have rest : utf8Bytes "/s3/aws4_request" = 47 :: utf8Bytes "s3" ++ 47 :: utf8Bytes "aws4_request" := by decide
  unfold scopeText
  simp only [utf8Bytes_append, slash, rest, List.intercalate_cons_cons, List.intercalate_singleton,
    List.append_assoc, List.cons_append, List.nil_append]

theorem utf8Bytes_signingText (date amzDate canonical : String) :
    utf8Bytes (tier.signingText digest date amzDate canonical) =
      stringToSign (hashOf digest) (utf8Bytes amzDate) (utf8Bytes (tier.scopeText date)) (utf8Bytes canonical) := by
  have newline : utf8Bytes "\n" = [10] := by decide
  have first : utf8Bytes "AWS4-HMAC-SHA256\n" = utf8Bytes "AWS4-HMAC-SHA256" ++ [10] := by decide
  unfold signingText stringToSign
  simp only [utf8Bytes_append, utf8Bytes_hexString, newline, first, hashOf, List.append_assoc, List.cons_append,
    List.nil_append]

/-! ### The header -/

/-- What the `Authorization` header of a request tells. -/
def authorization (digest : Digest) (tier : S3KvTier σ) (date amzDate canonical : String)
    (headers : List (String × String)) : Authorization where
  accessKey := utf8Bytes tier.credentials.accessKey
  date := utf8Bytes date
  region := utf8Bytes tier.config.region
  service := utf8Bytes "s3"
  signed := headers.map fun header => utf8Bytes header.1
  signature := hexDigits (s3Signature digest tier.credentials.secretKey date tier.config.region
    (utf8Bytes (tier.signingText digest date amzDate canonical))).toList

theorem utf8Bytes_authorizationText (date amzDate canonical : String) (headers : List (String × String)) :
    utf8Bytes (tier.authorizationText digest date amzDate canonical (signedHeaders headers)) =
      (tier.authorization digest date amzDate canonical headers).text := by
  have slash : utf8Bytes "/" = [47] := by decide
  have semicolon : utf8Bytes ";" = [59] := by decide
  have algorithm : utf8Bytes "AWS4-HMAC-SHA256 Credential=" =
      utf8Bytes "AWS4-HMAC-SHA256" ++ 32 :: utf8Bytes "Credential=" := by decide
  have signed : utf8Bytes ", SignedHeaders=" = 44 :: 32 :: utf8Bytes "SignedHeaders=" := by decide
  have signature : utf8Bytes ", Signature=" = 44 :: 32 :: utf8Bytes "Signature=" := by decide
  unfold authorizationText signedHeaders Authorization.text authorization
  simp only [utf8Bytes_append, utf8Bytes_scopeText, utf8Bytes_intercalate, utf8Bytes_hexString, slash, semicolon,
    algorithm, signed, signature, List.intercalate_cons_cons, List.intercalate_singleton, List.map_map,
    List.append_assoc, List.cons_append, List.nil_append]
  rfl

theorem signature_eq (date amzDate canonical : String) (headers : List (String × String)) :
    (tier.authorization digest date amzDate canonical headers).signature =
      signatureOf (hashOf digest) (utf8Bytes tier.credentials.secretKey) (utf8Bytes amzDate)
        (tier.authorization digest date amzDate canonical headers) (utf8Bytes canonical) := by
  unfold signatureOf
  rw [show (tier.authorization digest date amzDate canonical headers).scope = utf8Bytes (tier.scopeText date) from
    (utf8Bytes_scopeText date).symm]
  unfold authorization
  rw [s3Signature_eq, utf8Bytes_signingText]

/-! ### Paths -/

/-- A path of canonical segments is canonical. -/
theorem canonicalUri_path {parts : List String} (some_ : parts ≠ [])
    (each : ∀ part ∈ parts, canonicalUri (utf8Bytes part) = utf8Bytes part) :
    canonicalUri (utf8Bytes ("/" ++ "/".intercalate parts)) = utf8Bytes ("/" ++ "/".intercalate parts) := by
  have slash : utf8Bytes "/" = [47] := by decide
  have front : canonicalUri [] = [] := by decide
  have inner : canonicalUri ([47].intercalate (parts.map utf8Bytes)) = [47].intercalate (parts.map utf8Bytes) :=
    canonicalUri_parts (by simpa using some_) fun part among => by
      obtain ⟨text, there, rfl⟩ := List.mem_map.mp among
      exact each text there
  have joined := canonicalUri_join [] ([47].intercalate (parts.map utf8Bytes))
  rw [front, inner] at joined
  rw [utf8Bytes_append, utf8Bytes_intercalate, slash]
  exact joined

theorem mem_trimSlashes {char : Char} {text : List Char} (among : char ∈ trimSlashes text) : char ∈ text := by
  unfold trimSlashes at among
  rw [List.mem_reverse] at among
  have back := (List.dropWhile_suffix _).subset among
  rw [List.mem_reverse] at back
  exact (List.dropWhile_suffix _).subset back

/-- **A plain tier**: no white space is in what it signs, no slash in the names of its credential, and the base
path needs no encoding. -/
structure Plain (tier : S3KvTier σ) : Prop where
  authority : SolidText tier.endpoint.authority
  token : ∀ token ∈ tier.credentials.sessionToken, SolidText token
  accessKey : PlainText tier.credentials.accessKey
  region : PlainText tier.config.region
  basePath : ∀ char ∈ tier.endpoint.basePath.toList,
    char.toNat < 128 ∧ (unreserved (UInt8.ofNat char.toNat) = true ∨ char = '/')

theorem canonicalUri_baseParts (plain : tier.Plain) {part : String} (among : part ∈ tier.baseParts) :
    canonicalUri (utf8Bytes part) = utf8Bytes part := by
  unfold baseParts at among
  split at among
  · cases among
  · obtain rfl := List.mem_singleton.mp among
    have ascii : ∀ char ∈ trimSlashes tier.endpoint.basePath.toList, char.toNat < 128 :=
      fun char there => (plain.basePath char (mem_trimSlashes there)).1
    refine canonicalUri_plain fun byte there => ?_
    rw [utf8Bytes_ascii ascii] at there
    obtain ⟨char, inside, rfl⟩ := List.mem_map.mp there
    rcases (plain.basePath char (mem_trimSlashes inside)).2 with fine | rfl
    · exact Or.inl fine
    · exact Or.inr (by decide)

theorem canonicalUri_segment (value : String) :
    canonicalUri (utf8Bytes (percentPathSegment value)) = utf8Bytes (percentPathSegment value) := by
  rw [utf8Bytes_percentPathSegment, canonicalUri_encoded]

/-- The path of an object is canonical. -/
theorem objectPath_canonical (digest : Digest) (plain : tier.Plain) (key : KvBlockKey) :
    canonicalUri (utf8Bytes (tier.objectPath digest key)) = utf8Bytes (tier.objectPath digest key) := by
  refine canonicalUri_path (by simp) fun part among => ?_
  rcases List.mem_append.mp among with folder | last
  · unfold folderParts at folder
    rcases List.mem_append.mp folder with base | rest
    · exact canonicalUri_baseParts plain base
    · rcases List.mem_cons.mp rest with rfl | inside
      · exact canonicalUri_segment _
      · obtain ⟨text, _, rfl⟩ := List.mem_map.mp inside
        exact canonicalUri_segment _
  · obtain rfl := List.mem_singleton.mp last
    have ascii : ∀ byte ∈ key.cacheKey digest, byte.toNat < 128 :=
      fun byte there => unreserved_ascii (hexEncode_unreserved there)
    rw [utf8Bytes_asciiText ascii]
    exact canonicalUri_plain fun byte there => Or.inl (hexEncode_unreserved there)

/-- The path of the bucket is canonical. -/
theorem bucketPath_canonical (plain : tier.Plain) :
    canonicalUri (utf8Bytes tier.bucketPath) = utf8Bytes tier.bucketPath := by
  refine canonicalUri_path (by simp) fun part among => ?_
  rcases List.mem_append.mp among with base | last
  · exact canonicalUri_baseParts plain base
  · obtain rfl := List.mem_singleton.mp last
    exact canonicalUri_segment _

/-! ### The headers -/

/-- The headers come in the order of their names. -/
theorem canonicalHeaders_eq (payloadHash amzDate : String) :
    tier.canonicalHeaders payloadHash amzDate =
      [("host", tier.endpoint.authority), ("x-amz-content-sha256", payloadHash), ("x-amz-date", amzDate)] ++
        tier.credentials.sessionToken.toList.map fun token => ("x-amz-security-token", token) := by
  have first : "host" ≤ "x-amz-content-sha256" := by decide
  have second : "x-amz-content-sha256" ≤ "x-amz-date" := by decide
  have third : "x-amz-date" ≤ "x-amz-security-token" := by decide
  unfold canonicalHeaders
  cases tier.credentials.sessionToken <;> simp [first, second, third]

/-- The names of the headers that are signed. -/
theorem canonicalHeaders_names (tier : S3KvTier σ) (payloadHash amzDate : String) :
    ((tier.canonicalHeaders payloadHash amzDate).map fun header => utf8Bytes header.1) =
      [utf8Bytes "host", utf8Bytes "x-amz-content-sha256", utf8Bytes "x-amz-date"] ++
        tier.credentials.sessionToken.toList.map fun _ => utf8Bytes "x-amz-security-token" := by
  rw [canonicalHeaders_eq, List.map_append, List.map_map]
  rfl

/-- A name in lower case, with no separator. -/
def PlainName (name : List UInt8) : Prop := name.map lowerByte = name ∧ ∀ byte ∈ name, byte ≠ 32 ∧ byte ≠ 59

theorem plainName_of_all {names : List (List UInt8)}
    (all : names.all (fun name => name.map lowerByte == name && name.all fun byte => byte != 32 && byte != 59) = true) :
    ∀ name ∈ names, PlainName name := by
  intro name among
  have each := List.all_eq_true.mp all name among
  rw [Bool.and_eq_true, beq_iff_eq, List.all_eq_true] at each
  refine ⟨each.1, fun byte inside => ?_⟩
  have apart := each.2 byte inside
  rw [Bool.and_eq_true, bne_iff_ne, bne_iff_ne] at apart
  exact apart

/-- **The names are plain**, and all different. -/
theorem names_plain (tier : S3KvTier σ) :
    (∀ name ∈ [utf8Bytes "host", utf8Bytes "x-amz-content-sha256", utf8Bytes "x-amz-date"] ++
        tier.credentials.sessionToken.toList.map fun _ => utf8Bytes "x-amz-security-token", PlainName name) ∧
    ([utf8Bytes "host", utf8Bytes "x-amz-content-sha256", utf8Bytes "x-amz-date"] ++
        (tier.credentials.sessionToken.toList.map fun _ => utf8Bytes "x-amz-security-token") ++
      [utf8Bytes "authorization"]).Nodup := by
  cases tier.credentials.sessionToken with
  | none =>
      rw [Option.toList_none, List.map_nil]
      exact ⟨plainName_of_all (by decide), by decide⟩
  | some token =>
      rw [Option.toList_some, List.map_singleton]
      exact ⟨plainName_of_all (by decide), by decide⟩

/-- The values are canonical. -/
theorem values_plain (plain : tier.Plain) {amzDate : String} (solid : SolidText amzDate) (body : List UInt8)
    {header : String × String}
    (among : header ∈ tier.canonicalHeaders (hexString (digest body).toList) amzDate) :
    trimText header.2 = header.2 ∧ (32 : UInt8) ∉ utf8Bytes header.2 := by
  rw [canonicalHeaders_eq, List.mem_append] at among
  rcases among with first | token
  · simp only [List.mem_cons, List.not_mem_nil, or_false] at first
    rcases first with rfl | rfl | rfl
    · exact trimText_solid plain.authority
    · exact trimText_solid (hexString_solid _)
    · exact trimText_solid solid
  · obtain ⟨text, there, rfl⟩ := List.mem_map.mp token
    exact trimText_solid (plain.token text (Option.mem_toList.mp there))

/-! ### Requests -/

section

variable {stamp : String × String} {method path : String} {body : List UInt8}

/-- The headers of a request that are signed, as they are received. -/
def signedPairs (digest : Digest) (tier : S3KvTier σ) (stamp : String × String) (body : List UInt8) :
    List (List UInt8 × List UInt8) :=
  (tier.canonicalHeaders (hexString (digest body).toList) stamp.2).map fun header =>
    (utf8Bytes header.1, utf8Bytes header.2)

/-- What the `Authorization` header of a request tells. -/
def told (digest : Digest) (tier : S3KvTier σ) (stamp : String × String) (method path : String)
    (body : List UInt8) : Authorization :=
  tier.authorization digest stamp.1 stamp.2
    (canonicalText method path (hexString (digest body).toList)
      (tier.canonicalHeaders (hexString (digest body).toList) stamp.2))
    (tier.canonicalHeaders (hexString (digest body).toList) stamp.2)

theorem signedPairs_names :
    (tier.signedPairs digest stamp body).map Prod.fst =
      [utf8Bytes "host", utf8Bytes "x-amz-content-sha256", utf8Bytes "x-amz-date"] ++
        tier.credentials.sessionToken.toList.map fun _ => utf8Bytes "x-amz-security-token" := by
  rw [← canonicalHeaders_names tier (hexString (digest body).toList) stamp.2, signedPairs, List.map_map]
  rfl

theorem told_signed :
    (tier.told digest stamp method path body).signed = (tier.signedPairs digest stamp body).map Prod.fst := by
  rw [signedPairs, List.map_map]
  rfl

theorem received_headers :
    (tier.signedRequest digest stamp method path body).received.headers =
      tier.signedPairs digest stamp body ++
        [(utf8Bytes "Authorization", (tier.told digest stamp method path body).text)] := by
  unfold told
  rw [← utf8Bytes_authorizationText]
  unfold HttpRequest.received signedRequest
  rw [List.map_append, List.map_singleton]
  rfl

theorem lower_authorization : (utf8Bytes "Authorization").map lowerByte = utf8Bytes "authorization" := by decide

/-- A name that is signed is plain. -/
theorem signedPairs_plain {header : List UInt8 × List UInt8} (among : header ∈ tier.signedPairs digest stamp body) :
    PlainName header.1 := by
  have named := List.mem_map_of_mem (f := Prod.fst) among
  rw [signedPairs_names] at named
  exact (names_plain tier).1 _ named

/-- The names that are received, in lower case. -/
theorem received_names :
    ((tier.signedRequest digest stamp method path body).received.headers.map fun header => header.1.map lowerByte) =
      (tier.signedPairs digest stamp body).map Prod.fst ++ [utf8Bytes "authorization"] := by
  rw [received_headers, List.map_append, List.map_singleton, lower_authorization]
  exact congrArg (· ++ [utf8Bytes "authorization"])
    (List.map_congr_left fun header among => (signedPairs_plain among).1)

theorem received_distinct :
    ((tier.signedRequest digest stamp method path body).received.headers.map fun header =>
      header.1.map lowerByte).Nodup := by
  rw [received_names, signedPairs_names]
  exact (names_plain tier).2

/-- A header that is signed is received. -/
theorem received_header {header : List UInt8 × List UInt8} (among : header ∈ tier.signedPairs digest stamp body) :
    (tier.signedRequest digest stamp method path body).received.header header.1 = some header.2 := by
  refine SignedRequest.header_of_mem received_distinct ?_ (signedPairs_plain among).1
  rw [received_headers]
  exact List.mem_append_left _ among

theorem received_told :
    (tier.signedRequest digest stamp method path body).received.header (utf8Bytes "authorization") =
      some (tier.told digest stamp method path body).text := by
  refine SignedRequest.header_of_mem received_distinct ?_ lower_authorization
  rw [received_headers]
  exact List.mem_append_right _ (List.mem_singleton.mpr rfl)

/-- The lines that are signed are the lines that are received. -/
theorem received_lines (plain : tier.Plain) (stamped : Stamped stamp) :
    (tier.signedRequest digest stamp method path body).received.headerLines
        (tier.told digest stamp method path body).signed =
      some (utf8Bytes (headerText (tier.canonicalHeaders (hexString (digest body).toList) stamp.2))) := by
  rw [headerText_lines fun header among => values_plain plain stamped.solid body among, told_signed]
  exact SignedRequest.headerLines_of_mem fun header among => received_header among

/-- The header is plain. -/
theorem told_plain (plain : tier.Plain) (stamped : Stamped stamp) :
    (tier.told digest stamp method path body).Plain where
  accessKey := plain.accessKey
  date := stamped.plain
  region := plain.region
  service := plainText_of_all (by decide)
  signed := by
    intro name among
    rw [told_signed] at among
    obtain ⟨header, there, rfl⟩ := List.mem_map.mp among
    exact (signedPairs_plain there).2
  some_ := by
    rw [told_signed, signedPairs_names]
    exact List.append_ne_nil_of_left_ne_nil (List.cons_ne_nil _ _) _
  signature := fun byte among => hexDigits_solid among

/-- Enough is signed. -/
theorem told_enough :
    signsEnough (tier.signedRequest digest stamp method path body).received
      (tier.told digest stamp method path body).signed = true := by
  unfold signsEnough
  rw [told_signed, Bool.and_eq_true, List.contains_iff_mem, List.all_eq_true]
  constructor
  · rw [signedPairs_names]
    exact List.mem_append_left _ List.mem_cons_self
  · intro header among
    have inside := List.mem_map_of_mem (f := fun header => header.1.map lowerByte) among
    rw [received_names, List.mem_append, List.mem_singleton] at inside
    rw [Bool.or_eq_true, List.contains_iff_mem]
    rcases inside with signed | last
    · exact Or.inr signed
    · refine Or.inl ?_
      rw [last]
      decide

/-- **A request is authentic**, where the path is canonical and the service has the secret of the credential. -/
theorem request_authentic (digest : Digest) (plain : tier.Plain) (stamped : Stamped stamp)
    {secretOf : List UInt8 → Option (List UInt8)}
    (known : secretOf (utf8Bytes tier.credentials.accessKey) = some (utf8Bytes tier.credentials.secretKey))
    (canonical : canonicalUri (utf8Bytes path) = utf8Bytes path) (method : String) (body : List UInt8) :
    authentic (hashOf digest) secretOf (tier.signedRequest digest stamp method path body).received = true := by
  have signed : ∀ header ∈ [("host", tier.endpoint.authority),
      ("x-amz-content-sha256", hexString (digest body).toList), ("x-amz-date", stamp.2)],
      (tier.signedRequest digest stamp method path body).received.header (utf8Bytes header.1) =
        some (utf8Bytes header.2) := by
    intro header among
    have there : (utf8Bytes header.1, utf8Bytes header.2) ∈ tier.signedPairs digest stamp body := by
      unfold signedPairs
      rw [canonicalHeaders_eq]
      exact List.mem_map_of_mem (f := fun header => (utf8Bytes header.1, utf8Bytes header.2))
        (List.mem_append_left _ among)
    exact received_header there
  have summed := signed ("x-amz-content-sha256", hexString (digest body).toList) (by simp)
  rw [utf8Bytes_hexString] at summed
  refine authentic_signed (told_plain plain stamped) received_told known (signed ("x-amz-date", stamp.2) (by simp))
    summed (received_lines plain stamped) stamped.day told_enough ?_
  unfold told
  rw [signature_eq]
  exact congrArg _ (utf8Bytes_canonicalText rfl rfl canonical (utf8Bytes_hexString _))

end

end S3KvTier

end RivetCache
