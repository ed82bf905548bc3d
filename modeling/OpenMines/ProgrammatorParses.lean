import OpenMines.ProgrammatorParser

namespace OpenMines

open Lib.CheckedInt Lib.Utf8

section Packets

/-- The header of the packet does not give a negative length. -/
def PacketSafe (payload : List UInt8) : Prop :=
  payload.length < 8 ∨ 0 ≤ Lib.LittleEndian.i32OfBytes (payload.take 4)

theorem isSome_decodeProgPacket {payload : List UInt8} : (decodeProgPacket payload).isSome ↔ PacketSafe payload := by
  rw [decodeProgPacket, PacketSafe]
  split
  · rename_i hshort
    exact iff_of_true rfl (Or.inl hshort)
  · rename_i hlong
    rw [or_iff_right hlong, ← add_usizeOfI32_le (by decide : 0 < 8) (by decide), Option.bind_eq_bind, isSome_bind_iff]
    constructor
    · rintro ⟨start, hstart, -⟩
      exact (usize_eq_some.mp hstart).1
    · intro hfits
      refine ⟨_, usize_eq_some.mpr ⟨hfits, rfl⟩, ?_⟩
      split
      · rfl
      · rename_i hin
        obtain ⟨source, hsource⟩ := Option.isSome_iff_exists.mp (isSome_sliceFrom.mpr (Nat.le_of_not_lt hin))
        rw [hsource]
        rfl

/-- A binary program does not begin with a negative number of actions. -/
def BinarySafe (codec : ProgramCodec) (data : List Char) : Prop :=
  ∀ bytes, decompressed codec data = some bytes → bytes.length < 4 ∨ 0 ≤ actionCount bytes

theorem isSome_decodeNormalPayload {codec : ProgramCodec} {data : List Char} :
    (decodeNormalPayload codec data).isSome ↔ BinarySafe codec data := by
  rw [decodeNormalPayload, BinarySafe]
  cases hbytes : decompressed codec data with
  | none => simp
  | some bytes =>
      simp only [Option.some_inj, forall_eq']
      split
      · rename_i hshort
        exact iff_of_true rfl (Or.inl hshort)
      · rename_i hlong
        rw [or_iff_right hlong, ← add_usizeOfI32_le (by decide : 0 < 4) (by decide), Option.bind_eq_bind,
          isSome_bind_iff]
        constructor
        · rintro ⟨start, hstart, -⟩
          exact (usize_eq_some.mp hstart).1
        · intro hfits
          refine ⟨_, usize_eq_some.mpr ⟨hfits, rfl⟩, ?_⟩
          split
          · rfl
          · rename_i hin
            split <;> simp [sliceFrom, Nat.le_of_not_lt hin]

/-- The actions of an accepted payload are inside it, and their number is that of a header. -/
theorem decodeNormalPayload_bounds {codec : ProgramCodec} {data : List Char} {bytes : List UInt8} {num : Nat}
    {labels : List (List Char)} (h : decodeNormalPayload codec data = some (some (bytes, num, labels))) :
    4 + num ≤ bytes.length ∧ 4 + num ≤ usizeMax := by
  rw [decodeNormalPayload] at h
  cases hbytes : decompressed codec data with
  | none => simp [hbytes] at h
  | some found =>
      simp only [hbytes] at h
      split at h
      · cases h
      · simp only [Option.bind_eq_bind, Option.bind_eq_some_iff] at h
        obtain ⟨start, hstart, h⟩ := h
        obtain ⟨hfits, rfl⟩ := usize_eq_some.mp hstart
        split at h
        · cases h
        · rename_i hin
          have hout : found = bytes ∧ usizeOfI32 (actionCount found) = num := by
            split at h
            all_goals
              obtain ⟨labelsStr, -, h⟩ := Option.bind_eq_some_iff.mp h
              cases h
              exact ⟨rfl, rfl⟩
          obtain ⟨rfl, rfl⟩ := hout
          exact ⟨Nat.le_of_not_lt hin, hfits⟩

end Packets

section Normal

theorem isSome_parseLabel (label : List Char) : (parseLabel label).isSome := by
  rw [parseLabel]
  cases hfind : findByte '@' label with
  | none => rfl
  | some atPos =>
      obtain ⟨before, after, rfl, rfl⟩ := findByte_eq_some hfind
      have htake := takeBytes_append before ('@' :: after)
      have hat : dropBytes (before ++ '@' :: after) (byteLen before) = some (['@'] ++ after) :=
        dropBytes_eq_some.mpr ⟨before, rfl, rfl⟩
      have hdrop : dropBytes (before ++ '@' :: after) (byteLen before + 1) = some after := dropBytes_add hat
      simp [htake, hdrop]

theorem isSome_labelOf (labels : List (List Char)) (i : Nat) : (labelOf labels i).isSome := by
  rw [labelOf]
  cases labels[i]? with
  | none => rfl
  | some label => exact isSome_parseLabel label

theorem NormalState.index_add_le (p : NormalState) (atype : ActionType) (name : List Char) (number : Int32) :
    (p.add atype name number).index ≤ p.index := by
  unfold NormalState.add
  split <;> simp

theorem NormalState.index_endRow_le (p : NormalState) : p.endRow.index ≤ p.index := by
  rw [NormalState.endRow]
  split <;> simp

theorem normalStep_eq_some {bytes : List UInt8} {labels : List (List Char)} {p : NormalState} {i : Nat}
    (hi : 4 + i < bytes.length) (hfits : 4 + i ≤ usizeMax) (hindex : p.index ≤ i) :
    ∃ q, normalStep bytes labels p i = some q ∧ q.index ≤ i + 1 := by
  have hpos : usize (i + 4) = some (i + 4) := usize_eq_some.mpr ⟨by omega, rfl⟩
  have hbyte : bytes[i + 4]? = some bytes[i + 4] := List.getElem?_eq_getElem (by omega)
  obtain ⟨⟨name, number⟩, hname⟩ := Option.isSome_iff_exists.mp (isSome_labelOf labels i)
  have hle := ((p.add (getActionType bytes[i + 4]) name number).index_endRow_le).trans (p.index_add_le _ name number)
  have hnext : usize ((p.add (getActionType bytes[i + 4]) name number).endRow.index + 1) = some _ :=
    usize_eq_some.mpr ⟨by omega, rfl⟩
  refine ⟨{ (p.add (getActionType bytes[i + 4]) name number).endRow with
    index := (p.add (getActionType bytes[i + 4]) name number).endRow.index + 1 }, ?_, ?_⟩
  · simp only [normalStep, hpos, hbyte, hname, hnext, Option.bind_eq_bind, Option.bind_some, Option.pure_def]
  · exact Nat.succ_le_succ (hle.trans hindex)

theorem foldlM_normalStep {bytes : List UInt8} {labels : List (List Char)} {num : Nat}
    (hlen : 4 + num ≤ bytes.length) (hfits : 4 + num ≤ usizeMax) :
    ∃ q, (List.range num).foldlM (normalStep bytes labels) ⟨.start, false, 0⟩ = some q ∧ q.index ≤ num := by
  induction num with
  | zero => exact ⟨_, rfl, Nat.le_refl 0⟩
  | succ k ih =>
      obtain ⟨p, hp, hindex⟩ := ih (by omega) (by omega)
      have hstep : ∃ q, normalStep bytes labels p k = some q ∧ q.index ≤ k + 1 :=
        normalStep_eq_some (by omega) (by omega) hindex
      obtain ⟨q, hq, hnext⟩ := hstep
      refine ⟨q, ?_, hnext⟩
      rw [List.range_succ, List.foldlM_append, hp]
      simpa using hq

theorem isSome_parseNormal {codec : ProgramCodec} {data : List Char} :
    (parseNormal codec data).isSome ↔ BinarySafe codec data := by
  rw [parseNormal, Option.bind_eq_bind, isSome_bind_iff, ← isSome_decodeNormalPayload]
  constructor
  · rintro ⟨decoded, hdecoded, -⟩
    rw [hdecoded]
    rfl
  · intro h
    obtain ⟨decoded, hdecoded⟩ := Option.isSome_iff_exists.mp h
    refine ⟨decoded, hdecoded, ?_⟩
    match decoded, hdecoded with
    | none, _ => rfl
    | some (bytes, num, labels), hdecoded =>
        obtain ⟨hlen, hfits⟩ := decodeNormalPayload_bounds hdecoded
        have hloop : ∃ q, (List.range num).foldlM (normalStep bytes labels) ⟨.start, false, 0⟩ = some q ∧
            q.index ≤ num := foldlM_normalStep hlen hfits
        obtain ⟨q, hq, -⟩ := hloop
        simp [hq]

end Normal

section TextFormat

/-- The reader goes on behind an offset. -/
def Advances (i : Nat) (r : Checked (Nat × ParseState)) : Prop := ∃ next p, r = some (next, p) ∧ i < next

variable {context : List Char} {i : Nat} {p : ParseState}

theorem advances_usize {n : Nat} (hn : n ≤ usizeMax) (hi : i < n) :
    Advances i ((usize n).bind (fun next => some (next, p))) :=
  ⟨n, p, by rw [usize_eq_some.mpr ⟨hn, rfl⟩, Option.bind_some], hi⟩

theorem advances_skipChar (hi : i + 8 ≤ usizeMax) (ch : Char) : Advances i (skipChar i p ch) :=
  advances_usize (by have := ch.utf8Size_le_four; omega) (Nat.lt_add_of_pos_right ch.utf8Size_pos)

theorem isSome_parseLabelUntil (hfits : byteLen context ≤ usizeMax) (start : Nat) (delimiter : Char) :
    ∃ found, parseLabelUntil context start delimiter = some found ∧
      ∀ label next, found = some (label, next) → start < next := by
  rw [parseLabelUntil]
  cases hrest : dropBytes context start with
  | none => exact ⟨none, rfl, nofun⟩
  | some rest =>
      simp only
      cases hfind : findByte delimiter rest with
      | none => exact ⟨none, rfl, nofun⟩
      | some stop =>
          obtain ⟨before, after, rfl, rfl⟩ := findByte_eq_some hfind
          have hlen := byteLen_of_dropBytes hrest
          rw [byteLen_append, byteLen_cons] at hlen
          have hstop : usize (start + byteLen before) = some _ := usize_eq_some.mpr ⟨by omega, rfl⟩
          have hnext : usize (start + byteLen before + delimiter.utf8Size) = some _ :=
            usize_eq_some.mpr ⟨by omega, rfl⟩
          refine ⟨some (before, start + byteLen before + delimiter.utf8Size),
            by simp [takeBytes_append, hstop, hnext], fun label next h => ?_⟩
          obtain ⟨rfl, rfl⟩ := Prod.mk.inj (Option.some_inj.mp h)
          have := delimiter.utf8Size_pos
          omega

theorem advances_readLabel (hfits : byteLen context ≤ usizeMax) {start : Nat} (hstart : i ≤ start)
    (delimiter : Char) (act : List Char → ParseState) {otherwise : Checked (Nat × ParseState)}
    (hother : Advances i otherwise) : Advances i (readLabel context start delimiter act otherwise) := by
  obtain ⟨found, hfound, hnext⟩ := isSome_parseLabelUntil hfits start delimiter
  rw [readLabel, hfound]
  match found, hnext with
  | none, _ => exact hother
  | some (label, next), hnext => exact ⟨next, act label, rfl, hstart.trans_lt (hnext label next rfl)⟩

theorem advances_readLabelAction (hfits : byteLen context ≤ usizeMax) (hi : i + 8 ≤ usizeMax) {start : Nat}
    (hstart : i ≤ start) (delimiter : Char) (actionType : ActionType) (ch : Char) :
    Advances i (readLabelAction context i p start delimiter actionType ch) :=
  advances_readLabel hfits hstart delimiter _ (advances_skipChar hi ch)

theorem advances_readKind (hi : i + 8 ≤ usizeMax) (kinds : List (Char × ActionType)) (ch : Char)
    {otherwise : Checked (Nat × ParseState)} (hother : Advances i otherwise) :
    Advances i (readKind context i p kinds ch otherwise) := by
  have hch := ch.utf8Size_le_four
  rw [readKind, usize_eq_some.mpr ⟨by omega, rfl⟩]
  simp only [Option.bind_eq_bind, Option.bind_some]
  split
  · rename_i kind _
    have hkind := kind.utf8Size_le_four
    split
    · exact advances_usize (by omega) (by have := ch.utf8Size_pos; omega)
    · exact hother
  · exact hother

theorem advances_charStep (hfits : byteLen context ≤ usizeMax) (hi : i + 8 ≤ usizeMax) (ch : Char) :
    Advances i (charStep context i p ch) := by
  have hch := ch.utf8Size_le_four
  have hpos := ch.utf8Size_pos
  have hskip : Advances i (skipChar i p ch) := advances_skipChar hi ch
  have hword (n : Nat) (q : ParseState) (hn : n ≤ 4) :
      Advances i ((usize (i + ch.utf8Size + n)).bind (fun next => some (next, q))) :=
    advances_usize (by omega) (by omega)
  have hlabel (n : Nat) (hn : n ≤ 4) (delimiter : Char) (actionType : ActionType) : Advances i
      ((usize (i + ch.utf8Size + n)).bind (fun start => readLabelAction context i p start delimiter actionType ch)) := by
    rw [usize_eq_some.mpr ⟨by omega, rfl⟩, Option.bind_some]
    exact advances_readLabelAction hfits hi (by omega) delimiter actionType ch
  rw [charStep, usize_eq_some.mpr ⟨by omega, rfl⟩]
  simp only [Option.bind_eq_bind, Option.bind_some, Option.pure_def]
  split
  · exact advances_readLabelAction hfits hi (by omega) _ _ _
  · exact advances_readLabel hfits (by omega) _ _ hskip
  · split
    · exact hlabel 1 (by decide) _ _
    · split
      · exact hlabel 1 (by decide) _ _
      · exact hskip
  · exact advances_readLabel hfits (by omega) _ _ hskip
  · split
    · exact hword 1 _ (by decide)
    · split
      · exact hword 1 _ (by decide)
      · split
        · exact hlabel 1 (by decide) _ _
        · exact hskip
  · split
    · exact hlabel 1 (by decide) _ _
    · exact hskip
  · split
    · exact hlabel 1 (by decide) _ _
    · exact hskip
  · have hkind : Advances i (readKind context i p conditionKinds '=' (skipChar i p '=')) :=
      advances_readKind hi conditionKinds '=' hskip
    have hgreater := '>'.utf8Size_le_four
    split
    · rw [usize_eq_some.mpr ⟨by omega, rfl⟩, Option.bind_some]
      exact advances_readLabel hfits (by omega) _ _ hkind
    · exact hkind
  · exact advances_readLabelAction hfits hi (by omega) _ _ _
  · exact advances_readLabel hfits (by omega) _ _ hskip
  · split
    · exact hword 1 _ (by decide)
    · split
      · exact hword 2 _ (by decide)
      · split
        · exact hword 2 _ (by decide)
        · exact hskip
  · exact advances_readKind hi _ _ hskip
  · exact advances_readLabelAction hfits hi (by omega) _ _ _
  · split
    · exact advances_skipChar hi ch
    · exact hskip

/-- The number of bytes that the table gives for a word is its length. -/
theorem textTokens_width : ∀ token ∈ textTokens, 0 < token.2.1 ∧ token.2.1 = byteLen token.1.toList := by
  decide

theorem advances_textStep (hfits : byteLen context ≤ usizeMax) (hi : i + 8 ≤ usizeMax) (ch : Char)
    (rest : List Char) : Advances i (textStep context i p ch rest) := by
  rw [textStep]
  cases hfind : textTokens.find? (fun token => token.1.toList.isPrefixOf (ch :: rest)) with
  | none => exact advances_charStep hfits hi ch
  | some token =>
      have hmem := List.mem_of_find?_eq_some hfind
      have hwidth : 0 < token.2.1 ∧ token.2.1 ≤ 8 :=
        (by decide : ∀ token ∈ textTokens, 0 < token.2.1 ∧ token.2.1 ≤ 8) token hmem
      exact advances_usize (by omega) (by omega)

/-- The rounds that are left are enough for the bytes that are left. -/
theorem isSome_textLoop (hfits : byteLen context + 8 ≤ usizeMax) {rounds : Nat} (hrounds : 0 < rounds)
    (h : byteLen context < i + rounds) : (textLoop context rounds i p).isSome := by
  induction rounds generalizing i p with
  | zero => cases hrounds
  | succ rounds ih =>
      rw [textLoop]
      split
      · rename_i hlt
        split
        · rfl
        · rfl
        · rename_i ch rest _
          have hadvances : Advances i (textStep context i p ch rest) := advances_textStep (by omega) (by omega) ch rest
          obtain ⟨next, q, hstep, hnext⟩ := hadvances
          rw [hstep]
          exact ih (by omega) (by omega)
      · rfl

theorem isSome_parseText (data : Source) : (parseText data.chars).isSome := by
  have hfits := data.fits
  unfold parseText
  split
  · rename_i context hdata
    rw [hdata, byteLen_cons] at hfits
    have hloop : (textLoop context (byteLen context + 1) 0 .start).isSome :=
      isSome_textLoop (by rw [usizeMax]; omega) (Nat.succ_pos _) (by omega)
    obtain ⟨p, hp⟩ := Option.isSome_iff_exists.mp hloop
    rw [hp]
    cases p <;> rfl
  · rfl

end TextFormat

def ProgramSafe (codec : ProgramCodec) (data : List Char) : Prop := data.head? = some '$' ∨ BinarySafe codec data

theorem ProgrammatorState.isSome_runProgram {codec : ProgramCodec} {s : ProgrammatorState} {data : Source} (now : Nat) :
    (s.runProgram codec data now).isSome ↔ ProgramSafe codec data.chars := by
  rw [runProgram, ProgramSafe]
  split
  · rename_i hhead
    refine iff_of_true ?_ (Or.inl hhead)
    obtain ⟨parsed, hparsed⟩ := Option.isSome_iff_exists.mp (isSome_parseText data)
    rw [hparsed]
    cases parsed <;> rfl
  · rename_i hhead
    rw [or_iff_right hhead, ← isSome_parseNormal, Option.bind_eq_bind, isSome_bind_iff]
    constructor
    · rintro ⟨parsed, hparsed, -⟩
      rw [hparsed]
      rfl
    · intro h
      obtain ⟨parsed, hparsed⟩ := Option.isSome_iff_exists.mp h
      refine ⟨parsed, hparsed, ?_⟩
      cases parsed <;> rfl

end OpenMines
