import OpenMines.Lib.CheckedInt
import OpenMines.Lib.LittleEndian
import OpenMines.Lib.Text
import OpenMines.Lib.Utf8

namespace OpenMines.ClientPackets

open Lib.CheckedInt Lib.LittleEndian Lib.Text Lib.Utf8

/-- The bytes that a client sends; their length is that of an allocation. -/
structure ClientPayload where
  bytes : List UInt8
  fits : bytes.length ≤ 9223372036854775807

section Decoders

variable (data : ClientPayload)

structure TyPacket where
  eventName : UInt8 × UInt8 × UInt8 × UInt8
  time : UInt32
  x : UInt32
  y : UInt32
  subPayload : List UInt8

def TyPacket.decode : Checked (Option TyPacket) :=
  if data.bytes.length < 16 then some none
  else do
    let eventName := (← data.bytes[0]?, ← data.bytes[1]?, ← data.bytes[2]?, ← data.bytes[3]?)
    let time := u32OfBytes [← data.bytes[4]?, ← data.bytes[5]?, ← data.bytes[6]?, ← data.bytes[7]?]
    let x := u32OfBytes [← data.bytes[8]?, ← data.bytes[9]?, ← data.bytes[10]?, ← data.bytes[11]?]
    let y := u32OfBytes [← data.bytes[12]?, ← data.bytes[13]?, ← data.bytes[14]?, ← data.bytes[15]?]
    let subPayload ← sliceFrom data.bytes 16
    return some { eventName, time, x, y, subPayload }

inductive AuAuthType
  | noAuth
  | regular (userId : Int32) (token : List Char)
  deriving DecidableEq

structure AuClientPacket where
  uniq : List Char
  authType : AuAuthType
  deriving DecidableEq

def trimmed (s : List Char) : List Char := (trim (String.ofList s)).toList

def parseI32Chars (s : List Char) : Option Int32 := parseI32 (String.ofList s)

/-- The token is what stands behind the second underscore. -/
def readToken (s uniq kind : List Char) : Checked (List Char) := do
  let tokenStart ← usize ((← usize ((← usize (byteLen uniq + 1)) + byteLen kind)) + 1)
  if tokenStart ≤ byteLen s then dropBytes s tokenStart else some []

def AuClientPacket.decode : Checked (Option AuClientPacket) :=
  match fromUtf8 data.bytes with
  | none => some none
  | some text =>
      let s := trimmed text
      if s = [] then some none
      else
        match s.splitOn '_' with
        | uniq :: kind :: _ =>
            if uniq = [] ∨ kind = [] then some none
            else if kind ∈ ["NO".toList, "NO_AUTH".toList, "NOAUTH".toList] then some (some ⟨uniq, .noAuth⟩)
            else
              match parseI32Chars kind with
              | none => some none
              | some userId => do return some ⟨uniq, .regular userId (← readToken s uniq kind)⟩
        | _ => some none

structure PongClient where
  response : Int32
  currentTime : Int32

def PongClient.decode : Checked (Option PongClient) :=
  match fromUtf8 data.bytes with
  | none => some none
  | some s => do
      let parts := s.splitOn ':'
      if parts.length ≠ 2 then return none
      let response ← parts[0]?
      let currentTime ← parts[1]?
      return (parseI32Chars response).bind fun response =>
        (parseI32Chars currentTime).map fun currentTime => { response, currentTime }

def parseI32Text : Option Int32 := (fromUtf8 data.bytes).bind fun s => parseI32Chars (trimmed s)

def decodeXmov : Checked (Option Int32) := some (parseI32Text data)

def decodeXdig : Checked (Option Int32) := some (parseI32Text data)

structure XbldClient where
  direction : Int32
  blockType : List Char
  deriving DecidableEq

/-- The last byte is the type of the block, what stands before it the direction. -/
def XbldClient.decode : Checked (Option XbldClient) :=
  match fromUtf8 data.bytes with
  | none => some none
  | some s =>
      if s = [] then some none
      else do
        let dirStr ← takeBytes s (byteLen s - 1)
        let blockType ← dropBytes s (byteLen s - 1)
        return (parseI32Chars dirStr).map fun direction => { direction, blockType }

/-- A button is a text, or the member `b` of an object of a format that another package reads. -/
def decodeGuiButton (fromJson : List Char → Option (List Char)) : Checked (Option (List Char)) :=
  match fromUtf8 data.bytes with
  | none => some none
  | some text =>
      let s := trimmed text
      if s = [] then some none
      else if s.head? = some '{' then some (fromJson s)
      else some (some s)

structure LoclClient where
  length : Int32
  message : List Char

def LoclClient.decode : Checked (Option LoclClient) :=
  match fromUtf8 data.bytes with
  | none => some none
  | some s =>
      if s = [] then some none
      else some (some { length := if byteLen s ≤ 2147483647 then Int32.ofNat (byteLen s) else 2147483647, message := s })

def decodeWhoi : Checked (Option (List Int32)) :=
  match fromUtf8 data.bytes with
  | none => some none
  | some s =>
      if s = [] then some (some [])
      else some ((s.splitOn ',').mapM fun p => if trimmed p = [] then none else parseI32Chars (trimmed p))

end Decoders

section Total

variable {data : ClientPayload}

theorem TyPacket.isSome_decode (data : ClientPayload) : (TyPacket.decode data).isSome := by
  rw [TyPacket.decode]
  split
  · rfl
  · rename_i hlong
    have hbyte : ∀ i < 16, ∃ b, data.bytes[i]? = some b :=
      fun i hi => ⟨_, List.getElem?_eq_getElem (by omega)⟩
    obtain ⟨payload, hpayload⟩ := Option.isSome_iff_exists.mp (isSome_sliceFrom.mpr (Nat.le_of_not_lt hlong))
    obtain ⟨b0, h0⟩ := hbyte 0 (by decide)
    obtain ⟨b1, h1⟩ := hbyte 1 (by decide)
    obtain ⟨b2, h2⟩ := hbyte 2 (by decide)
    obtain ⟨b3, h3⟩ := hbyte 3 (by decide)
    obtain ⟨b4, h4⟩ := hbyte 4 (by decide)
    obtain ⟨b5, h5⟩ := hbyte 5 (by decide)
    obtain ⟨b6, h6⟩ := hbyte 6 (by decide)
    obtain ⟨b7, h7⟩ := hbyte 7 (by decide)
    obtain ⟨b8, h8⟩ := hbyte 8 (by decide)
    obtain ⟨b9, h9⟩ := hbyte 9 (by decide)
    obtain ⟨b10, h10⟩ := hbyte 10 (by decide)
    obtain ⟨b11, h11⟩ := hbyte 11 (by decide)
    obtain ⟨b12, h12⟩ := hbyte 12 (by decide)
    obtain ⟨b13, h13⟩ := hbyte 13 (by decide)
    obtain ⟨b14, h14⟩ := hbyte 14 (by decide)
    obtain ⟨b15, h15⟩ := hbyte 15 (by decide)
    simp only [h0, h1, h2, h3, h4, h5, h6, h7, h8, h9, h10, h11, h12, h13, h14, h15, hpayload, Option.bind_eq_bind,
      Option.bind_some]
    rfl

/-- Two parts and what follows them, between underscores. -/
theorem splitOn_eq_cons_cons {s uniq kind : List Char} {rest : List (List Char)}
    (h : s.splitOn '_' = uniq :: kind :: rest) :
    s = uniq ++ '_' :: kind ∨ ∃ token, s = uniq ++ '_' :: kind ++ '_' :: token := by
  have hjoin : ['_'].intercalate (s.splitOn '_') = s := List.intercalate_splitOn '_'
  rw [h] at hjoin
  cases rest with
  | nil => exact Or.inl (by simpa [List.intercalate] using hjoin.symm)
  | cons token rest =>
      refine Or.inr ⟨List.intercalate ['_'] (token :: rest), ?_⟩
      rw [← hjoin]
      simp [List.intercalate]

theorem byteLen_trimmed_le (s : List Char) : byteLen (trimmed s) ≤ byteLen s := by
  rw [trimmed, trim, String.toList_ofList, String.toList_ofList, byteLen_reverse]
  calc byteLen ((s.dropWhile isWhitespace).reverse.dropWhile isWhitespace)
    _ ≤ byteLen (s.dropWhile isWhitespace).reverse := byteLen_dropWhile_le _ _
    _ = byteLen (s.dropWhile isWhitespace) := byteLen_reverse _
    _ ≤ byteLen s := byteLen_dropWhile_le _ _

theorem readToken_behind {uniq kind token : List Char}
    (hfits : byteLen (uniq ++ '_' :: kind ++ '_' :: token) ≤ 9223372036854775807) :
    readToken (uniq ++ '_' :: kind ++ '_' :: token) uniq kind = some token := by
  have hmax : usizeMax = 18446744073709551615 := rfl
  have hsign : '_'.utf8Size = 1 := by decide
  have hlen : byteLen (uniq ++ '_' :: kind ++ '_' :: token) = byteLen uniq + (1 + byteLen kind) + (1 + byteLen token) := by
    rw [byteLen_append, byteLen_append, byteLen_cons, byteLen_cons, hsign]
  have hfirst : usize (byteLen uniq + 1) = some _ := usize_eq_some.mpr ⟨by omega, rfl⟩
  have hsecond : usize (byteLen uniq + 1 + byteLen kind) = some _ := usize_eq_some.mpr ⟨by omega, rfl⟩
  have hthird : usize (byteLen uniq + 1 + byteLen kind + 1) = some _ := usize_eq_some.mpr ⟨by omega, rfl⟩
  simp only [readToken, hfirst, hsecond, hthird, Option.bind_eq_bind, Option.bind_some]
  rw [if_pos (by omega)]
  refine dropBytes_eq_some.mpr ⟨uniq ++ '_' :: kind ++ ['_'], by simp, ?_⟩
  rw [byteLen_append, byteLen_append, byteLen_cons, byteLen_cons, byteLen_nil, hsign]
  omega

theorem readToken_none {uniq kind : List Char} (hfits : byteLen (uniq ++ '_' :: kind) ≤ 9223372036854775807) :
    readToken (uniq ++ '_' :: kind) uniq kind = some [] := by
  have hmax : usizeMax = 18446744073709551615 := rfl
  have hsign : '_'.utf8Size = 1 := by decide
  have hlen : byteLen (uniq ++ '_' :: kind) = byteLen uniq + (1 + byteLen kind) := by
    rw [byteLen_append, byteLen_cons, hsign]
  have hfirst : usize (byteLen uniq + 1) = some _ := usize_eq_some.mpr ⟨by omega, rfl⟩
  have hsecond : usize (byteLen uniq + 1 + byteLen kind) = some _ := usize_eq_some.mpr ⟨by omega, rfl⟩
  have hthird : usize (byteLen uniq + 1 + byteLen kind + 1) = some _ := usize_eq_some.mpr ⟨by omega, rfl⟩
  simp only [readToken, hfirst, hsecond, hthird, Option.bind_eq_bind, Option.bind_some]
  exact if_neg (by omega)

theorem AuClientPacket.isSome_decode (data : ClientPayload) : (AuClientPacket.decode data).isSome := by
  rw [AuClientPacket.decode]
  cases htext : fromUtf8 data.bytes with
  | none => rfl
  | some text =>
      have hlen : byteLen (trimmed text) ≤ 9223372036854775807 := by
        have hle := byteLen_trimmed_le text
        have hbytes := byteLen_of_fromUtf8 htext
        have hfits := data.fits
        omega
      dsimp only
      split
      · rfl
      · split
        · rename_i uniq kind rest hsplit
          split
          · rfl
          · split
            · rfl
            · split
              · rfl
              · rcases splitOn_eq_cons_cons hsplit with hs | ⟨token, hs⟩
                · rw [hs] at hlen ⊢
                  rw [readToken_none hlen]
                  rfl
                · rw [hs] at hlen ⊢
                  rw [readToken_behind hlen]
                  rfl
        · rfl

theorem PongClient.isSome_decode (data : ClientPayload) : (PongClient.decode data).isSome := by
  rw [PongClient.decode]
  cases fromUtf8 data.bytes with
  | none => rfl
  | some s =>
      dsimp only
      split
      · rfl
      · rename_i htwo
        obtain ⟨a, b, hparts⟩ : ∃ a b, s.splitOn ':' = [a, b] := List.length_eq_two.mp (not_not.mp htwo)
        rw [hparts]
        rfl

/-- A payload does not end in a character of several bytes. -/
def EndsInByte (data : ClientPayload) : Prop :=
  ∀ s c, fromUtf8 data.bytes = some s → s.getLast? = some c → c.utf8Size = 1

theorem decode_append {s : List Char} {c : Char} (h : fromUtf8 data.bytes = some (s ++ [c])) (hc : c.utf8Size = 1) :
    XbldClient.decode data = some ((parseI32Chars s).map fun direction => ⟨direction, [c]⟩) := by
  have hbefore : byteLen (s ++ [c]) - 1 = byteLen s := by
    rw [byteLen_append, byteLen_cons, hc]
    rfl
  have htake : takeBytes (s ++ [c]) (byteLen s) = some s := takeBytes_append s [c]
  have hdrop : dropBytes (s ++ [c]) (byteLen s) = some [c] := dropBytes_eq_some.mpr ⟨s, rfl, rfl⟩
  rw [XbldClient.decode, h]
  dsimp only
  rw [if_neg (List.append_ne_nil_of_right_ne_nil _ (List.cons_ne_nil _ _)), hbefore, htake, hdrop]
  rfl

theorem XbldClient.isSome_decode (h : EndsInByte data) : (XbldClient.decode data).isSome := by
  cases hs : fromUtf8 data.bytes with
  | none =>
      rw [XbldClient.decode, hs]
      rfl
  | some s =>
      cases List.eq_nil_or_concat s with
      | inl hnil =>
          rw [XbldClient.decode, hs, hnil]
          rfl
      | inr hconcat =>
          obtain ⟨before, c, rfl⟩ := hconcat
          rw [List.concat_eq_append] at hs
          rw [decode_append hs (h _ c hs (by simp))]
          rfl

theorem isSome_decodeWhoi (data : ClientPayload) : (decodeWhoi data).isSome := by
  rw [decodeWhoi]
  cases fromUtf8 data.bytes with
  | none => rfl
  | some s =>
      dsimp only
      split <;> rfl

theorem LoclClient.isSome_decode (data : ClientPayload) : (LoclClient.decode data).isSome := by
  rw [LoclClient.decode]
  cases fromUtf8 data.bytes with
  | none => rfl
  | some s =>
      dsimp only
      split <;> rfl

theorem isSome_decodeGuiButton (data : ClientPayload) (fromJson : List Char → Option (List Char)) :
    (decodeGuiButton data fromJson).isSome := by
  rw [decodeGuiButton]
  cases fromUtf8 data.bytes with
  | none => rfl
  | some text =>
      dsimp only
      split
      · rfl
      · split <;> rfl

end Total

section RoundTrip

variable {data : ClientPayload}

theorem not_mem_decimal {n : Int} {c : Char} (h : (c == '-' || c.isDigit) = false) : c ∉ decimal n := by
  intro hin
  rw [Bool.or_eq_false_iff, beq_eq_false_iff_ne] at h
  rcases isDigit_of_decimal hin with heq | hdigit
  · exact h.1 heq
  · rw [h.2] at hdigit
    cases hdigit

theorem trimmed_eq {s : List Char} (h : Trimmed s) : trimmed s = s := by
  rw [trimmed, trim_of_trimmed h, String.toList_ofList]

theorem AuClientPacket.decode_joined {uniq token : List Char} {userId : Int32} (hne : uniq ≠ []) (hsign : '_' ∉ uniq)
    (htrim : Trimmed (uniq ++ '_' :: decimal userId.toInt ++ '_' :: token))
    (hdata : data.bytes = toUtf8 (uniq ++ '_' :: decimal userId.toInt ++ '_' :: token)) :
    AuClientPacket.decode data = some (some ⟨uniq, .regular userId token⟩) := by
  have hfits := data.fits
  rw [hdata, length_toUtf8] at hfits
  have hsplit : (uniq ++ '_' :: decimal userId.toInt ++ '_' :: token).splitOn '_' =
      uniq :: decimal userId.toInt :: token.splitOn '_' := by
    rw [List.append_assoc, List.cons_append, List.splitOn_append_cons_self_of_not_mem hsign,
      List.splitOn_append_cons_self_of_not_mem (not_mem_decimal (by decide))]
  have hkind : decimal userId.toInt ∉ ["NO".toList, "NO_AUTH".toList, "NOAUTH".toList] := by
    have hletter : ∀ word ∈ ["NO".toList, "NO_AUTH".toList, "NOAUTH".toList], 'N' ∈ word := by decide
    exact fun hin => not_mem_decimal (c := 'N') (by decide) (hletter _ hin)
  have hnumber : parseI32Chars (decimal userId.toInt) = some userId := parseI32_decimal userId
  rw [AuClientPacket.decode, hdata, fromUtf8_toUtf8]
  dsimp only
  rw [trimmed_eq htrim, if_neg (by simp), hsplit]
  dsimp only
  rw [if_neg (by simp [hne, decimal_ne_nil]), if_neg hkind, hnumber]
  dsimp only
  rw [readToken_behind hfits]
  rfl

theorem XbldClient.decode_joined {direction : Int32} {c : Char} (hc : c.utf8Size = 1)
    (hdata : data.bytes = toUtf8 (decimal direction.toInt ++ [c])) :
    XbldClient.decode data = some (some ⟨direction, [c]⟩) := by
  have hnumber : parseI32Chars (decimal direction.toInt) = some direction := parseI32_decimal direction
  rw [decode_append (hdata ▸ fromUtf8_toUtf8 _) hc, hnumber]
  rfl

theorem trimmed_decimal (n : Int) : Trimmed (decimal n) := by
  have hspace : ∀ c ∈ decimal n, isWhitespace c = false := by
    intro c hc
    rcases isDigit_of_decimal hc with rfl | hdigit
    · decide
    · exact isWhitespace_of_isDigit hdigit
  refine ⟨fun c hc => hspace c (List.mem_of_mem_head? hc), fun c hc => hspace c (List.mem_of_getLast? hc)⟩

theorem decodeWhoi_joined {ids : List Int32}
    (hdata : data.bytes = toUtf8 ([','].intercalate (ids.map fun id => decimal id.toInt))) :
    decodeWhoi data = some (some ids) := by
  have hread : ∀ ids : List Int32, ((ids.map fun id => decimal id.toInt).mapM fun p =>
      if trimmed p = [] then none else parseI32Chars (trimmed p)) = some ids := by
    intro ids
    induction ids with
    | nil => rfl
    | cons id ids ih =>
        have hid : parseI32Chars (decimal id.toInt) = some id := parseI32_decimal id
        rw [List.map_cons, List.mapM_cons, ih, trimmed_eq (trimmed_decimal _), if_neg (decimal_ne_nil _), hid]
        rfl
  rw [decodeWhoi, hdata, fromUtf8_toUtf8]
  dsimp only
  cases ids with
  | nil => rfl
  | cons id ids =>
      have hsplit : ([','].intercalate ((id :: ids).map fun id => decimal id.toInt)).splitOn ',' =
          (id :: ids).map fun id => decimal id.toInt := by
        refine List.splitOn_intercalate ',' (fun word hword => ?_) (List.cons_ne_nil _ _)
        obtain ⟨id, -, rfl⟩ := List.mem_map.mp hword
        exact not_mem_decimal (by decide)
      rw [if_neg, hsplit, hread]
      intro hnil
      rw [hnil] at hsplit
      exact decimal_ne_nil id.toInt (List.cons.inj hsplit).1.symm

end RoundTrip

/-- The decoders of the client's packets return, and undo their encodings. -/
theorem decoders_spec :
    (∀ data, (TyPacket.decode data).isSome ∧ (AuClientPacket.decode data).isSome ∧ (PongClient.decode data).isSome ∧
      (EndsInByte data → (XbldClient.decode data).isSome) ∧ (decodeXmov data).isSome ∧ (decodeXdig data).isSome ∧
      (decodeWhoi data).isSome ∧ (LoclClient.decode data).isSome ∧
      ∀ fromJson, (decodeGuiButton data fromJson).isSome) ∧
    (∀ (data : ClientPayload) (direction : Int32) (c : Char), c.utf8Size = 1 →
      data.bytes = toUtf8 (decimal direction.toInt ++ [c]) →
      XbldClient.decode data = some (some ⟨direction, [c]⟩)) ∧
    (∀ (data : ClientPayload) (uniq token : List Char) (userId : Int32), uniq ≠ [] → '_' ∉ uniq →
      Trimmed (uniq ++ '_' :: decimal userId.toInt ++ '_' :: token) →
      data.bytes = toUtf8 (uniq ++ '_' :: decimal userId.toInt ++ '_' :: token) →
      AuClientPacket.decode data = some (some ⟨uniq, .regular userId token⟩)) ∧
    (∀ (data : ClientPayload) (ids : List Int32),
      data.bytes = toUtf8 ([','].intercalate (ids.map fun id => decimal id.toInt)) →
      decodeWhoi data = some (some ids)) := by
  refine ⟨fun data => ⟨TyPacket.isSome_decode data, AuClientPacket.isSome_decode data, PongClient.isSome_decode data,
    XbldClient.isSome_decode, rfl, rfl, isSome_decodeWhoi data, LoclClient.isSome_decode data,
    isSome_decodeGuiButton data⟩, fun _ _ _ => XbldClient.decode_joined, fun _ _ _ _ => AuClientPacket.decode_joined,
    fun _ _ => decodeWhoi_joined⟩

/-- A block type of two bytes is cut in two, and white space at the end of a token is lost. -/
theorem decoders_fail :
    XbldClient.decode ⟨[53, 195, 169], by decide⟩ = none ∧
    AuClientPacket.decode ⟨[117, 95, 53, 95, 116, 32], by decide⟩ ≠
      some (some ⟨['u'], .regular 5 ['t', ' ']⟩) := by
  constructor
  · have htext : fromUtf8 [53, 195, 169] = some ['5', 'é'] := fromUtf8_toUtf8 ['5', 'é']
    rw [XbldClient.decode, htext]
    decide
  · have htext : fromUtf8 [117, 95, 53, 95, 116, 32] = some ['u', '_', '5', '_', 't', ' '] :=
      fromUtf8_toUtf8 ['u', '_', '5', '_', 't', ' ']
    rw [AuClientPacket.decode, htext]
    decide

end OpenMines.ClientPackets
