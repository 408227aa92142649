import Tabular.Storage
import Tabular.Proofs.Coercion
import Tabular.Proofs.Utf8
import Tabular.Proofs.Json.Reader

/-!
Values that are stored as documents. A value of any kind comes back from its document, but for real
numbers: one that is not finite is lost, and of the others some come back as another number.
-/
namespace Tabular

theorem Json.readBytes?_write {v : Json} (h : v.Legible) (hdepth : v.reread.depth ≤ maxDepth) :
    readBytes? (Text.Utf8.encodeChars v.write) = some v.reread := by
  rw [readBytes?, Text.Utf8.decode?_encodeChars]
  simp only [Option.bind_eq_bind, Option.bind_some, (spells_write v h).read?, if_pos hdepth]

namespace Raw

theorem deserialize?_record (v : Raw) {name : String} (payload : Json)
    (hv : v.toJson = .record [(name, payload)]) (h : payload.Legible)
    (hdepth : payload.reread.depth = 0) :
    deserialize? v.serialize = ofJson? (.record [(name, payload.reread)]) := by
  have hread : (Json.record [(name, payload)]).reread = .record [(name, payload.reread)] := rfl
  have hone : (Json.record [(name, payload.reread)]).depth ≤ Json.maxDepth := by
    simp [Json.record, Json.depth, Json.depthFields, hdepth, Json.maxDepth]
  have hlegible : (Json.record [(name, payload)]).Legible := ⟨rfl, h, trivial⟩
  rw [deserialize?, serialize, hv, Json.readBytes?_write hlegible (hread ▸ hone), hread]
  rfl

def reread? : Raw → Option Raw
  | .real x => x.reread?.map .real
  | v => some v

theorem deserialize?_serialize_real (x : Binary64) :
    deserialize? (real x).serialize = x.reread?.map .real := by
  cases finite : x.isFinite with
  | true =>
    have hread : (Json.ofReal x).reread = x.reread?.elim .unreadable .real := by
      rw [Json.ofReal, if_pos finite, Json.reread, if_pos finite]
    have hlegible : (Json.ofReal x).Legible := by
      rw [Json.ofReal, if_pos finite]
      trivial
    have hdepth : (Json.ofReal x).reread.depth = 0 := by
      rw [hread]
      cases x.reread? <;> rfl
    rw [deserialize?_record (.real x) (.ofReal x) rfl hlegible hdepth, hread]
    cases x.reread? <;> rfl
  | false =>
    have hnull : Json.ofReal x = .null := by rw [Json.ofReal, finite]; rfl
    have hlost : x.reread? = none := by rw [Binary64.reread?, finite]; rfl
    have hdocument : (real x).toJson = .record [("Float", .null)] :=
      congrArg (fun v => Json.record [("Float", v)]) hnull
    rw [deserialize?_record (.real x) .null hdocument trivial rfl, hlost]
    rfl

theorem deserialize?_serialize {v : Raw} (untagged : v.untagged = v) (hbytes : ∀ b, v ≠ .bytes b)
    (hobject : ∀ d, v ≠ .object d) : deserialize? v.serialize = v.reread? := by
  cases v with
  | tagged a w => exact absurd untagged (untagged_ne_tagged w a w)
  | bytes b => exact absurd rfl (hbytes b)
  | object d => exact absurd rfl (hobject d)
  | null =>
    have hread : Json.readBytes? (Text.Utf8.encodeChars (Json.text "Null").write) =
        some (Json.text "Null") := Json.readBytes?_write trivial (by decide)
    rw [deserialize?, serialize, toJson, hread]
    rfl
  | bool b => exact deserialize?_record (.bool b) (.bool b) rfl trivial rfl
  | int n =>
    have hlow := n.le_toInt
    have hhigh := n.toInt_lt
    rw [deserialize?_record (.int n) (.integer n.toInt) rfl ⟨hlow, by omega⟩ rfl]
    show (toWord? n.toInt).map Raw.int = _
    rw [toWord?_toInt]
    rfl
  | text s => exact deserialize?_record (.text s) (.text s) rfl trivial rfl
  | real x => exact deserialize?_serialize_real x

/-- Only real numbers may come back as something else. -/
theorem reread?_eq_some_iff {v : Raw} :
    v.reread? = some v ↔ ∀ x, v = .real x → x.reread? = some x := by
  cases v with
  | real x =>
    rw [reread?, Option.map_eq_some_iff]
    refine ⟨?_, fun h => ⟨x, h x rfl, rfl⟩⟩
    rintro ⟨y, hy, heq⟩ z hz
    cases heq
    cases hz
    exact hy
  | _ => exact ⟨fun _ _ h => (nomatch h), fun _ => rfl⟩

end Raw

/-- The document that a blob makes of a value holds the value, but for real numbers. One that is not
finite is lost; any other is read as some number, which is the same if its decimal is small. -/
theorem Value.revive_of_blob {v : Raw} (hbytes : ∀ b, v.untagged ≠ .bytes b)
    (hobject : ∀ d, v.untagged ≠ .object d) :
    ∃ d, StorageClass.blob.coerce v = .ok (.object d) ∧
      ((object d).revive = .ok v.untagged ↔
        ∀ x, v.untagged = .real x → x.reread? = some x) ∧
      ∀ x, v.untagged = .real x →
        (x.isFinite = false → (object d).revive = .error .unreadableObject) ∧
        (x.isFinite = true → ∃ y, (object d).revive = .ok (.real y) ∧
          (x.written.1 ≤ 2 ^ 53 → x.written.2.natAbs ≤ 22 → y = x)) := by
  have hform : StorageClass.blob.form? v.untagged = some (.object v.untagged.serialize) := by
    cases h : v.untagged with
    | bytes b => exact absurd h (hbytes b)
    | object d => exact absurd h (hobject d)
    | _ => rfl
  have hread : Raw.deserialize? v.untagged.serialize = v.untagged.reread? :=
    Raw.deserialize?_serialize v.untagged_untagged hbytes hobject
  have hrevive : ∀ w : Raw, v.untagged.reread? = some w →
      (object v.untagged.serialize).revive = .ok w := by
    intro w hw
    rw [revive, readObject, hread, hw]
  have hlost : v.untagged.reread? = none →
      (object v.untagged.serialize).revive = .error .unreadableObject := by
    intro hw
    rw [revive, readObject, hread, hw]
  refine ⟨v.untagged.serialize, StorageClass.coerce_eq_ok_iff.2 hform, ?_, fun x hx => ⟨?_, ?_⟩⟩
  · rw [← Raw.reread?_eq_some_iff]
    refine ⟨fun h => ?_, hrevive v.untagged⟩
    cases hw : v.untagged.reread? with
    | none => rw [hlost hw] at h; cases h
    | some w => rw [hrevive w hw] at h; exact congrArg some (Except.ok.inj h)
  · intro infinite
    refine hlost ?_
    rw [hx, Raw.reread?, Binary64.reread?, infinite]
    rfl
  · intro finite
    obtain ⟨y, hy⟩ := Option.isSome_iff_exists.1 (Binary64.reread?_isSome finite)
    refine ⟨y, hrevive (.real y) ?_, fun hdigits hpower => ?_⟩
    · rw [hx, Raw.reread?, hy]
      rfl
    · have hsame := Binary64.reread?_eq_some finite hdigits hpower
      exact Option.some.inj (hy.symm.trans hsame)

/-- A tenth under two tags comes back. -/
theorem Value.revive_of_blob_tenth :
    let x : Binary64 := ⟨0x3FB999999999999A⟩
    let v : Raw := .tagged .text (.tagged .integer (.real x))
    ∃ d, StorageClass.blob.coerce v = .ok (.object d) ∧ (object d).revive = .ok (.real x) := by
  intro x v
  obtain ⟨d, hcoerce, -, hreal⟩ :=
    revive_of_blob (v := v) (fun _ h => nomatch h) (fun _ h => nomatch h)
  obtain ⟨y, hrevive, hsame⟩ := (hreal x rfl).2 (by decide)
  obtain rfl := hsame (by decide +kernel) (by decide +kernel)
  exact ⟨d, hcoerce, hrevive⟩

/-- An infinity is lost, and an eleventh comes back as its neighbour. -/
theorem Value.revive_of_blob_lost :
    (∃ d, StorageClass.blob.coerce (.real ⟨0x7FF0000000000000⟩) = .ok (.object d) ∧
      (object d).revive = .error .unreadableObject) ∧
    ∃ d, StorageClass.blob.coerce (.real ⟨0x3FB745D1745D1746⟩) = .ok (.object d) ∧
      (object d).revive = .ok (.real ⟨0x3FB745D1745D1747⟩) :=
  ⟨⟨_, rfl, by decide +kernel⟩, _, rfl, by decide +kernel⟩

end Tabular
