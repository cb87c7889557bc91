import RasterStore.Proofs.Dted.Matrix

/-!
# What comes back of an elevation

A column that is encoded and decoded again comes back as `comesBack` says (`column_comes_back`).
Values from -16000 on, and the no-data value, come back as they are. The two lowest values come back
as the no-data value. The values between are taken for two's complement, come back as others, and
the decoding reports it.
-/

namespace RasterStore.DtedCodec

open ByteArray Dted RasterStore.Action

variable {codec : DtedCodec} {context : BlockContext} {values : List Int}

/-- What is read where a value was stored. -/
def comesBack (value : Int) : Int :=
  if Misread value then -32768 - value else max value noData

/-- Encodes a block and decodes it again. -/
def encodeDecode (context : BlockContext) (data : ByteArray) : Action DtedCodec Decoded := do
  Codec.encode context data
  Codec.decode context

/-- The record just written is parsed. -/
private theorem ends_encodeDecode {data : ByteArray} (husable : codec.storage.Usable)
    (hroom : codec.storage.medium ≠ .memory →
      codec.recordOffset context.block.x + recordBytes codec.raster.height < offsetLimit)
    (hrows : (blockValues data).length = codec.raster.height) :
    (encodeDecode context data).Ends codec
      (fun decoded _ => decoded = reading (blockValues data)) (fun _ _ => False) := by
  apply Ends.bind
  apply (ends_writeColumn husable context.block.x (blockValues data)).mono
  · rintro _ ⟨written, dataOffset, raster⟩ ⟨rfl, rfl, hwritten, hinside, hslice⟩
    exact (ends_decode_of_record rfl rfl hwritten.readable hinside hslice hrows).imp
      fun _ _ h => h.2
  · -- a write can only fail behind the end of the file, where the record has no room
    rintro _ _ ⟨-, hmedium, hlimit⟩
    have hbelow := hroom hmedium
    omega

theorem reread_eq_comesBack {value : Int} (h : IsSample value) :
    reread value = (comesBack value, decide (Misread value)) := by
  rw [reread_eq h, comesBack]
  split
  · next hmisread => rw [decide_eq_true hmisread]
  · next hmisread => rw [decide_eq_false hmisread]

/-- A column of 16-bit elevations that is encoded and decoded again comes back in its order, each
    elevation as `comesBack` says, and it is reported if one was taken for two's complement. -/
theorem column_comes_back (husable : codec.storage.Usable)
    (hroom : codec.storage.medium ≠ .memory →
      codec.recordOffset context.block.x + recordBytes codec.raster.height < offsetLimit)
    (hrows : values.length = codec.raster.height) (hsamples : ∀ value ∈ values, IsSample value) :
    (encodeDecode context (blockOfValues values)).Ends codec
      (fun decoded _ => decoded.bytes = blockOfValues (values.map comesBack) ∧
        decoded.anomalies =
          if values.any (fun value => decide (Misread value)) then [complementAnomaly] else [])
      (fun _ _ => False) := by
  have hvalues := blockValues_blockOfValues hsamples
  have hback : values.map (fun value => (reread value).1) = values.map comesBack :=
    List.map_congr_left fun value hmem => by rw [reread_eq_comesBack (hsamples value hmem)]
  have hreports : values.any (fun value => (reread value).2) =
      values.any fun value => decide (Misread value) := by
    -- a misread value is reported, and no other
    rw [Bool.eq_iff_iff, List.any_eq_true, List.any_eq_true]
    constructor
    · rintro ⟨value, hmem, hvalue⟩
      rw [reread_eq_comesBack (hsamples value hmem)] at hvalue
      exact ⟨value, hmem, hvalue⟩
    · rintro ⟨value, hmem, hvalue⟩
      have hreport : (reread value).2 = true := by
        rw [reread_eq_comesBack (hsamples value hmem)]
        exact hvalue
      exact ⟨value, hmem, hreport⟩
  apply (ends_encodeDecode husable hroom (by rw [hvalues, hrows])).imp
  rintro decoded _ rfl
  rw [hvalues, reading, hback, hreports]
  exact ⟨rfl, rfl⟩

/-- A column with both sides of the limit, in memory. -/
theorem column_comes_back_limit :
    (Storage.inMemory ByteArray.empty true).Usable ∧
      (encodeDecode ⟨⟨1, 0, 0⟩, band 2, ⟨1, 2⟩⟩ (blockOfValues [-16000, -16001])).Ends
        (⟨Storage.inMemory ByteArray.empty true, headerBytes, ⟨1, 2⟩⟩ : DtedCodec)
        (fun decoded _ => decoded.bytes = blockOfValues [-16000, -16767] ∧
          decoded.anomalies = [complementAnomaly])
        (fun _ _ => False) := by
  have husable : (Storage.inMemory ByteArray.empty true).Usable := ⟨trivial, rfl⟩
  have hsamples : ∀ value ∈ [(-16000 : Int), -16001], IsSample value := by
    simp [IsSample]
  have hback : [(-16000 : Int), -16001].map comesBack = [-16000, -16767] := by decide
  have hreport : (if [(-16000 : Int), -16001].any (fun value => decide (Misread value))
      then [complementAnomaly] else []) = [complementAnomaly] := if_pos (by decide)
  refine ⟨husable, ?_⟩
  rw [← hback, ← hreport]
  -- the two sides agree as they stand; unfolding them would run the codec
  with_reducible
    exact @column_comes_back
      ⟨Storage.inMemory ByteArray.empty true, headerBytes, ⟨1, 2⟩⟩ ⟨⟨1, 0, 0⟩, band 2, ⟨1, 2⟩⟩
      [-16000, -16001] husable (fun hfile => absurd rfl hfile) rfl hsamples

/-- A column that comes back without a report holds no value that is read as two's complement. -/
private theorem anomalies_of_ends {data bytes : ByteArray} (husable : codec.storage.Usable)
    (hroom : codec.storage.medium ≠ .memory →
      codec.recordOffset context.block.x + recordBytes codec.raster.height < offsetLimit)
    (hrows : (blockValues data).length = codec.raster.height)
    (h : (encodeDecode context data).Ends codec
      (fun decoded _ => decoded.bytes = bytes ∧ decoded.anomalies = []) (fun _ _ => False)) :
    (reading (blockValues data)).anomalies = [] := by
  have hread := ends_encodeDecode husable hroom hrows
  obtain ⟨decoded, _, -, ⟨-, hnone⟩, rfl⟩ :=
    ((h.and hread).mono (fun _ _ h => h) fun _ _ h => h.1).exists_ok
  exact hnone

/-- Not every elevation is preserved: -20000 comes back as another one, and with a report. -/
theorem elevations_not_preserved :
    ¬∀ (codec : DtedCodec) (context : BlockContext) (values : List Int),
      codec.storage.Usable → FitsHeaders codec.raster → context.block.x < codec.raster.width →
      values.length = codec.raster.height → (∀ value ∈ values, IsSample value) →
      (encodeDecode context (blockOfValues values)).Ends codec
        (fun decoded _ => decoded.bytes = blockOfValues (values.map fun value => max value noData) ∧
          decoded.anomalies = [])
        (fun _ _ => False) := by
  -- one elevation of -20000 in a raster of one cell
  intro hpreserved
  have husable : (Storage.inMemory ByteArray.empty true).Usable := ⟨trivial, rfl⟩
  have hsamples : ∀ value ∈ [(-20000 : Int)], IsSample value := by
    simp [IsSample]
  have hvalues := blockValues_blockOfValues hsamples
  have hrows : (blockValues (blockOfValues [-20000])).length = 1 := by rw [hvalues]; rfl
  -- if every elevation came back without a report, nothing would be reported here
  have hnone : (reading (blockValues (blockOfValues [-20000]))).anomalies = [] := by
    with_reducible
      exact @anomalies_of_ends
        ⟨Storage.inMemory ByteArray.empty true, headerBytes, ⟨1, 1⟩⟩ ⟨⟨1, 0, 0⟩, band 1, ⟨1, 1⟩⟩
        _ _ husable (fun hfile => absurd rfl hfile) hrows
        (hpreserved ⟨Storage.inMemory ByteArray.empty true, headerBytes, ⟨1, 1⟩⟩
          ⟨⟨1, 0, 0⟩, band 1, ⟨1, 1⟩⟩ [-20000] husable
          ⟨by decide, by decide, by decide, by decide⟩ (by decide) rfl hsamples)
  -- but a value below the threshold is misread, which is reported
  rw [hvalues] at hnone
  exact absurd hnone (by decide)

end RasterStore.DtedCodec
