import Repertory.Identifier
import Repertory.Proofs.Json.ReadBack
import Repertory.Resource

/-!
# Identifiers read back

An identifier that was read from text is read from what is written of it, as text and as JSON
(`Identifier.readsBack_of_text`). Both readers try the id first. An id is written so that it reads
as itself (`Identity.Lossless`); a slug is written as it is, so it reads as it did before, and since
a JSON text is an id only if it reads as one, the JSON reader takes it for a slug too.
-/

namespace Repertory

namespace Identifier

theorem read_cases {ι : Type} [Identity ι] {text : String} {x : Identifier ι}
    (h : read text = .ok x) :
    (∃ i, x = .id i) ∨ (Identity.read text : Option ι) = none ∧ x = .slug text := by
  rw [read] at h
  cases hid : (Identity.read text : Option ι) with
  | some i =>
    rw [hid] at h
    cases h
    exact .inl ⟨i, rfl⟩
  | none =>
    rw [hid] at h
    by_cases hblank : Text.isBlankText text = true
    · rw [bySlug, if_pos hblank] at h
      cases h
    · rw [bySlug, if_neg hblank] at h
      cases h
      exact .inr ⟨rfl, rfl⟩

end Identifier

variable {ι : Type} [Identity ι] [JsonCodec ι]

/-- Nothing is lost when an id is written, and a JSON text is an id only if it reads as one. -/
structure Identity.Lossless (ι : Type) [Identity ι] [JsonCodec ι] : Prop where
  read_text : ∀ i : ι, Identity.read (Identity.text i) = some i
  decode_encode : ∀ i : ι, JsonCodec.decode (JsonCodec.encode i) = some i
  read_of_decode : ∀ (s : String) (i : ι), JsonCodec.decode (.text s) = some i →
    Identity.read s = some i
  parse_encode : ∀ i : ι,
    Json.parse (Json.compact (JsonCodec.encode i)) = some (JsonCodec.encode i)

theorem Int64.lossless : Identity.Lossless Int64 where
  read_text := Number.readSigned_signedText
  decode_encode := Number.signed?_toInt
  read_of_decode _ _ h := by cases h
  parse_encode i := by
    have hmin : -0x8000000000000000 ≤ i.toInt := Int64.le_toInt i
    have hlt : i.toInt < 0x8000000000000000 := Int64.toInt_lt i
    exact Json.parse_compact_int hmin (by omega)

theorem Uuid.decode_text (s : String) :
    (JsonCodec.decode (.text s) : Option Uuid) = Uuid.read s := rfl

theorem Uuid.encode_eq (u : Uuid) : JsonCodec.encode u = .text u.text := rfl

theorem Uuid.lossless : Identity.Lossless Uuid where
  read_text := Uuid.read_text
  decode_encode u := by rw [encode_eq, decode_text, Uuid.read_text]
  read_of_decode s u h := by rwa [decode_text] at h
  parse_encode u := by rw [encode_eq, Json.parse_compact_text]

namespace Identifier

/-- The identifier is read from its text and from its JSON, and a slug is not taken for an id. -/
structure ReadsBack (x : Identifier ι) : Prop where
  text : read x.display = .ok x
  json : decode x.encode = some x
  jsonText : (Json.parse (Json.compact x.encode)).bind decode = some x
  not_id : ∀ s, x = .slug s → ∀ i : ι, read s ≠ .ok (.id i) ∧ decode (.text s) ≠ some (.id i)

theorem readsBack_id (hι : Identity.Lossless ι) (i : ι) : (id i).ReadsBack := by
  have hdecode : decode (id i).encode = some (id i) := by
    rw [encode, decode, hι.decode_encode]
  have hparse : Json.parse (Json.compact (id i).encode) = some (id i).encode := hι.parse_encode i
  constructor
  case text => rw [display, read, hι.read_text]
  case json => exact hdecode
  case jsonText => rw [hparse, Option.bind_some, hdecode]
  case not_id => exact nofun

/-- A slug that does not read as an id is no id in JSON either. -/
theorem readsBack_slug (hι : Identity.Lossless ι) {s : String}
    (hnone : (Identity.read s : Option ι) = none)
    (hread : read s = .ok (.slug s : Identifier ι)) : (slug s : Identifier ι).ReadsBack := by
  have hjson : (JsonCodec.decode (.text s) : Option ι) = none := by
    rw [Option.eq_none_iff_forall_ne_some]
    intro i hi
    rw [hι.read_of_decode s i hi] at hnone
    cases hnone
  have hdecode : decode (.text s) = some (.slug s : Identifier ι) := by
    rw [decode, hjson]
    rfl
  constructor
  case text => exact hread
  case json => exact hdecode
  case jsonText => rw [encode, Json.parse_compact_text, Option.bind_some, hdecode]
  case not_id =>
    intro s' hs i
    cases hs
    rw [hread, hdecode]
    exact ⟨nofun, nofun⟩

theorem readsBack_of_read (hι : Identity.Lossless ι) {text : String} {x : Identifier ι}
    (h : read text = .ok x) : x.ReadsBack := by
  rcases read_cases h with ⟨i, rfl⟩ | ⟨hnone, rfl⟩
  · exact readsBack_id hι i
  · exact readsBack_slug hι hnone h

/-- What is read from text reads back, whether ids are numbers or unique identifiers. -/
theorem readsBack_of_text (text : String) :
    (∀ x : Identifier Int64, read text = .ok x → x.ReadsBack) ∧
      ∀ x : Identifier Uuid, read text = .ok x → x.ReadsBack :=
  ⟨fun _ => readsBack_of_read Int64.lossless, fun _ => readsBack_of_read Uuid.lossless⟩

/-- The number after the last one is a slug, and braces do not keep a text from being an id. -/
theorem readsBack_almost_ids :
    read "9223372036854775808" = .ok (.slug "9223372036854775808" : Identifier Int64) ∧
      (slug "9223372036854775808" : Identifier Int64).ReadsBack ∧
      ∃ u : Uuid, read "\x7b67E55044-10B1-426F-9247-BB680E5FE0C8\x7d" = .ok (.id u) ∧
        (id u).ReadsBack := by
  have hnumber : read "9223372036854775808" =
      .ok (.slug "9223372036854775808" : Identifier Int64) := by rfl
  have huuid : read "\x7b67E55044-10B1-426F-9247-BB680E5FE0C8\x7d" =
      .ok (.id (.ofNat 0x67E5504410B1426F9247BB680E5FE0C8) : Identifier Uuid) := by rfl
  exact ⟨hnumber, (readsBack_of_text _).1 _ hnumber, _, huuid, (readsBack_of_text _).2 _ huuid⟩

end Identifier
end Repertory
