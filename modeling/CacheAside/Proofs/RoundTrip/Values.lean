import CacheAside.Proofs.RoundTrip.Fields

/-!
# Values read back

For each kind of value: its tree fits into a text (`fits_toJson`), and the decoder takes the tree
back to the value (`decode_toJson`).  The two together give the compact text of every value, as long
as its weight is finite.
-/

namespace CacheAside

open Json

variable {depth : Nat} {source : Source}

namespace Ident

variable {kind : IdentKind}

theorem fits_toJson (id : Ident kind) : id.toJson.Fits depth :=
  fits_text _

end Ident

namespace NewRecord

theorem fits_toJson {r : NewRecord} (finite : r.weight.isFinite = true) :
    r.toJson.Fits (depth + 2) := by
  refine fits_record ?_
  simp only [List.forall_mem_cons]
  exact ⟨fits_text _, fits_int64 _, fits_real finite, fits_texts _, nofun⟩

theorem decode_toJson {r : NewRecord} (finite : r.weight.isFinite = true) :
    decode source r.toJson = .ok r := by
  rw [toJson, decode, Shape.fieldsOf_record]
  · simp [plain_real _ finite, pure, Except.pure]
  · simp [Shape.Takes, shape, plain_real _ finite]
  · simp

end NewRecord

namespace Record

/-- The time of the last update is written as any other time, or as `null` before the first. -/
theorem toJson_eq (r : Record) : ∃ updated,
    r.toJson = .record [("id", r.id.toJson), ("label", .text r.label),
      ("value", .int r.value.toInt), ("weight", .real r.weight), ("tags", textsToJson r.tags),
      ("created_at", .text r.createdAt.toText), ("updated_at", updated)] ∧
    (∀ depth, updated.Fits depth) ∧ updated.asOption asTime = .ok r.updatedAt := by
  refine ⟨_, rfl, ?_⟩
  cases r.updatedAt with
  | none => exact ⟨fun _ => fits_null, rfl⟩
  | some t =>
    have htime := asTime_text t
    rw [text] at htime
    exact ⟨fun _ => fits_text _, by simp [asOption, text, htime, Functor.map, Except.map]⟩

theorem fits_toJson {r : Record} (finite : r.weight.isFinite = true) :
    r.toJson.Fits (depth + 2) := by
  obtain ⟨updated, heq, hfits, -⟩ := r.toJson_eq
  rw [heq]
  refine fits_record ?_
  simp only [List.forall_mem_cons]
  exact ⟨Ident.fits_toJson _, fits_text _, fits_int64 _, fits_real finite, fits_texts _,
    fits_text _, hfits _, nofun⟩

theorem decode_toJson {r : Record} (finite : r.weight.isFinite = true) :
    decode source r.toJson = .ok r := by
  obtain ⟨updated, heq, -, hupdated⟩ := r.toJson_eq
  rw [heq, decode, Shape.fieldsOf_record]
  · simp [plain_real _ finite, Decoder.plain_ok _ hupdated, pure, Except.pure]
  · simp [Shape.Takes, shape, plain_real _ finite, Decoder.plain_ok _ hupdated]
  · simp

end Record

namespace FullReplace

theorem fits_members {u : FullReplace} (finite : u.weight.isFinite = true) :
    ∀ member ∈ u.members, member.2.Fits (depth + 1) := by
  simp only [members, List.forall_mem_cons]
  exact ⟨Ident.fits_toJson _, fits_text _, fits_int64 _, fits_real finite, fits_texts _, nofun⟩

theorem decode_toJson {u : FullReplace} (finite : u.weight.isFinite = true) :
    decode source u.toJson = .ok u := by
  rw [toJson, decode, members, Shape.fieldsOf_record]
  · simp [plain_real _ finite, pure, Except.pure]
  · simp [Shape.Takes, shape, plain_real _ finite]
  · simp

end FullReplace

namespace SparsePatch

/-- The members of a patch are those of the fields that are there. -/
theorem forall_members {u : SparsePatch} {P : String × Json → Prop} :
    (∀ member ∈ u.members, P member) ↔ P ("id", u.id.toJson) ∧
      (∀ label ∈ u.label.toOption, P ("label", .text label)) ∧
      (∀ value ∈ u.value.toOption, P ("value", .int value.toInt)) ∧
      (∀ weight ∈ u.weight.toOption, P ("weight", .real weight)) ∧
      (∀ tags ∈ u.tags.toOption, P ("tags", textsToJson tags)) := by
  simp only [members, List.forall_mem_cons, List.forall_mem_append, Patch.toMember_eq,
    List.forall_mem_map, Option.mem_toList, Option.mem_def, and_assoc]

theorem fits_members {u : SparsePatch}
    (finite : ∀ weight ∈ u.weight.toOption, weight.isFinite = true) :
    ∀ member ∈ u.members, member.2.Fits (depth + 1) :=
  forall_members.mpr ⟨Ident.fits_toJson _, fun _ _ => fits_text _, fun _ _ => fits_int64 _,
    fun _ h => fits_real (finite _ h), fun _ _ => fits_texts _⟩

theorem decode_toJson {u : SparsePatch}
    (finite : ∀ weight ∈ u.weight.toOption, weight.isFinite = true) :
    decode source u.toJson = .ok u := by
  have hnames : (u.members.map Prod.fst).Sublist ["id", "label", "value", "weight", "tags"] := by
    simp only [members, List.map_cons, List.map_append]
    exact (((Patch.names_sublist ..).append (Patch.names_sublist ..)).append
      (Patch.names_sublist ..)).append (Patch.names_sublist ..) |>.cons_cons "id"
  rw [toJson, decode, Shape.fieldsOf_record]
  · have hid : Fields.find? u.members "id" = some u.id.toJson := by
      simp [members, Fields.find?_cons]
    have hlabel : Fields.find? u.members "label" = u.label.toOption.map .text := by
      simp [members, Fields.find?_cons, Fields.find?_append, Patch.find?_toMember]
    have hvalue : Fields.find? u.members "value" = u.value.toOption.map (.int ·.toInt) := by
      simp [members, Fields.find?_cons, Fields.find?_append, Patch.find?_toMember]
    have hweight : Fields.find? u.members "weight" = u.weight.toOption.map .real := by
      simp [members, Fields.find?_cons, Fields.find?_append, Patch.find?_toMember]
    have htags : Fields.find? u.members "tags" = u.tags.toOption.map textsToJson := by
      simp [members, Fields.find?_cons, Fields.find?_append, Patch.find?_toMember]
    simp [Fields.required, hid, Patch.optional_toMember hlabel fun label _ => asString_text label,
      Patch.optional_toMember hvalue fun value _ => asInt64_int value,
      Patch.optional_toMember hweight fun weight h => asBinary64_real (finite weight h),
      Patch.optional_toMember htags fun tags _ => asStrings_texts tags, pure, Except.pure]
  · refine forall_members.mpr ⟨?_, fun label _ => ?_, fun value _ => ?_, fun weight h => ?_,
      fun tags _ => ?_⟩
    · simp [Shape.Takes, shape]
    · simp [Shape.Takes, shape, Patch.decode_ok (asString_text label)]
    · simp [Shape.Takes, shape, Patch.decode_ok (asInt64_int value)]
    · simp [Shape.Takes, shape, Patch.decode_ok (asBinary64_real (finite weight h))]
    · simp [Shape.Takes, shape, Patch.decode_ok (asStrings_texts tags)]
  · exact hnames.nodup (by simp)

end SparsePatch

namespace RecordUpdate

/-- The weight that an update carries. -/
def weight? : RecordUpdate → Option Binary64
  | .replace u => some u.weight
  | .patch u => u.weight.toOption

variable {u : RecordUpdate}

theorem fits_toJson (finite : ∀ weight ∈ u.weight?, weight.isFinite = true) :
    u.toJson.Fits (depth + 2) := by
  cases u with
  | replace u =>
    exact fits_record (List.forall_mem_cons.mpr
      ⟨fits_text _, FullReplace.fits_members (finite _ rfl)⟩)
  | patch u =>
    exact fits_record (List.forall_mem_cons.mpr ⟨fits_text _, SparsePatch.fits_members finite⟩)

/-- The mode in front says which of the two forms follows it. -/
theorem decode_toJson (room : source.HasRoom 2)
    (finite : ∀ weight ∈ u.weight?, weight.isFinite = true) : decode source u.toJson = .ok u := by
  cases u with
  | replace u =>
    have hfinite : u.weight.isFinite = true := finite _ rfl
    have hsplit : tagged.split source (RecordUpdate.replace u).toJson =
        .ok (.replace, .record u.members) :=
      Tagged.split_record rfl (by simp [tagged]) (by simp [FullReplace.members]) fun member h =>
        room.inner.accepts fun _ => FullReplace.fits_members hfinite member h
    have hdecode := @FullReplace.decode_toJson .buffered u hfinite
    rw [FullReplace.toJson] at hdecode
    simp [decode, hsplit, hdecode, Functor.map, Except.map]
  | patch u =>
    have hsplit : tagged.split source (RecordUpdate.patch u).toJson =
        .ok (.patch, .record u.members) :=
      Tagged.split_record rfl (by simp [tagged]) (SparsePatch.forall_members.mpr (by simp))
        fun member h => room.inner.accepts fun _ => SparsePatch.fits_members finite member h
    have hdecode := @SparsePatch.decode_toJson .buffered u finite
    rw [SparsePatch.toJson] at hdecode
    simp [decode, hsplit, hdecode, Functor.map, Except.map]

end RecordUpdate

namespace DomainEvent

/-- The weight of the record that an event carries. -/
def weight? : DomainEvent → Option Binary64
  | .created r => some r.weight
  | .updated r => some r.weight
  | .deleted _ => none

variable {e : DomainEvent}

theorem fits_toJson (finite : ∀ weight ∈ e.weight?, weight.isFinite = true) :
    e.toJson.Fits (depth + 3) := by
  cases e with
  | created r =>
    exact fits_record (by simpa using ⟨fits_text _, Record.fits_toJson (finite _ rfl)⟩)
  | updated r =>
    exact fits_record (by simpa using ⟨fits_text _, Record.fits_toJson (finite _ rfl)⟩)
  | deleted id =>
    exact fits_record (by simpa using ⟨fits_text _, Ident.fits_toJson id⟩)

theorem recordShape_fields (kind : String) :
    (recordShape kind).fields = [.of "record" Record.decode] := rfl

theorem fieldsOf_recordShape (kind : String) {r : Record} (finite : r.weight.isFinite = true) :
    (recordShape kind).fieldsOf .buffered (.record [("record", r.toJson)]) =
      .ok [("record", r.toJson)] := by
  refine Shape.fieldsOf_record ?_ (by simp)
  simp [Shape.Takes, recordShape_fields, Record.decode_toJson finite]

/-- The type in front says that a record follows it. -/
theorem split_withRecord {name : String} {kind : Kind}
    (known : tagged.variants.find? (fun variant => variant.1 == name) = some (name, kind))
    (room : source.HasRoom 3) {r : Record} (finite : r.weight.isFinite = true) :
    tagged.split source (.record [("type", .text name), ("record", r.toJson)]) =
      .ok (kind, .record [("record", r.toJson)]) := by
  have haccepted := room.inner.accepts fun _ => Record.fits_toJson finite
  exact Tagged.split_record rfl known (by simp) (by simpa using haccepted)

theorem decode_toJson (room : source.HasRoom 3)
    (finite : ∀ weight ∈ e.weight?, weight.isFinite = true) : decode source e.toJson = .ok e := by
  cases e with
  | created r =>
    have hfinite : r.weight.isFinite = true := finite _ rfl
    have hsplit :=
      @split_withRecord source "record_created" .created (by simp [tagged]) room r hfinite
    simp [decode, toJson, hsplit, fieldsOf_recordShape _ hfinite, Record.decode_toJson hfinite,
      Functor.map, Except.map]
  | updated r =>
    have hfinite : r.weight.isFinite = true := finite _ rfl
    have hsplit :=
      @split_withRecord source "record_updated" .updated (by simp [tagged]) room r hfinite
    simp [decode, toJson, hsplit, fieldsOf_recordShape _ hfinite, Record.decode_toJson hfinite,
      Functor.map, Except.map]
  | deleted id =>
    have haccepted := room.inner.accepts fun _ => Ident.fits_toJson id
    have hsplit : tagged.split source (DomainEvent.deleted id).toJson =
        .ok (.deleted, .record [("id", id.toJson)]) :=
      Tagged.split_record rfl (by simp [tagged]) (by simp) (by simpa using haccepted)
    have hfields : deletedShape.fieldsOf .buffered (.record [("id", id.toJson)]) =
        .ok [("id", id.toJson)] :=
      Shape.fieldsOf_record (by simp [Shape.Takes, deletedShape]) (by simp)
    simp [decode, hsplit, hfields, Functor.map, Except.map]

end DomainEvent

namespace EventEnvelope

variable {e : EventEnvelope}

theorem fits_toJson (finite : ∀ weight ∈ e.event.weight?, weight.isFinite = true) :
    e.toJson.Fits (depth + 4) := by
  refine fits_record ?_
  simp only [List.forall_mem_cons]
  exact ⟨Ident.fits_toJson _, fits_text _, DomainEvent.fits_toJson finite, nofun⟩

theorem decode_toJson (room : source.HasRoom 4)
    (finite : ∀ weight ∈ e.event.weight?, weight.isFinite = true) :
    decode source e.toJson = .ok e := by
  rw [toJson, decode, Shape.fieldsOf_record]
  · simp [DomainEvent.decode_toJson room.inner finite, pure, Except.pure]
  · simp [Shape.Takes, shape, DomainEvent.decode_toJson room.inner finite]
  · simp

end EventEnvelope

namespace FailureCounts

/-- Each count fits into a word of 64 bits. -/
structure Words (c : FailureCounts) : Prop where
  cacheGet : c.cacheGet < wordLimit
  cacheSet : c.cacheSet < wordLimit
  cacheDelete : c.cacheDelete < wordLimit
  eventPublish : c.eventPublish < wordLimit

variable {c : FailureCounts}

theorem fits_toJson (words : c.Words) : c.toJson.Fits (depth + 1) := by
  refine fits_record ?_
  simp only [List.forall_mem_cons]
  exact ⟨fits_word words.cacheGet, fits_word words.cacheSet, fits_word words.cacheDelete,
    fits_word words.eventPublish, nofun⟩

theorem decode_toJson (words : c.Words) : decode source c.toJson = .ok c := by
  have hget := plain_word source.inner words.cacheGet
  have hset := plain_word source.inner words.cacheSet
  have hdelete := plain_word source.inner words.cacheDelete
  have hpublish := plain_word source.inner words.eventPublish
  rw [toJson, decode, Shape.fieldsOf_record]
  · simp [hget, hset, hdelete, hpublish, pure, Except.pure]
  · simp [Shape.Takes, shape, hget, hset, hdelete, hpublish]
  · simp

end FailureCounts

/-! ## Texts -/

/-- The start of a text has room for whatever is set aside. -/
theorem Source.hasRoom_start {count : Nat} (le : count ≤ maxDepth) :
    (Source.streamed 0).HasRoom count := by
  intro depth h
  cases h
  omega

/-- The compact text of every value is decoded to that value: with the fields of a patch that were
there and no others, the same variant of a union, the same characters, integers, moments and
weights, as long as the weight is finite and counts are words of 64 bits. -/
theorem texts_read_back :
    (∀ r : NewRecord, r.weight.isFinite = true →
      decodeText NewRecord.decode r.toJson.compress = .ok r) ∧
    (∀ r : Record, r.weight.isFinite = true → decodeText Record.decode r.toJson.compress = .ok r) ∧
    (∀ u : FullReplace, u.weight.isFinite = true →
      decodeText FullReplace.decode u.toJson.compress = .ok u) ∧
    (∀ u : SparsePatch, (∀ weight ∈ u.weight.toOption, weight.isFinite = true) →
      decodeText SparsePatch.decode u.toJson.compress = .ok u) ∧
    (∀ u : RecordUpdate, (∀ weight ∈ u.weight?, weight.isFinite = true) →
      decodeText RecordUpdate.decode u.toJson.compress = .ok u) ∧
    (∀ e : DomainEvent, (∀ weight ∈ e.weight?, weight.isFinite = true) →
      decodeText DomainEvent.decode e.toJson.compress = .ok e) ∧
    (∀ e : EventEnvelope, (∀ weight ∈ e.event.weight?, weight.isFinite = true) →
      decodeText EventEnvelope.decode e.toJson.compress = .ok e) ∧
    (∀ c : FailureCounts, c.Words → decodeText FailureCounts.decode c.toJson.compress = .ok c) ∧
    (∀ id : RecordId, decodeText Ident.decode id.toJson.compress = .ok id) ∧
    (∀ id : EventId, decodeText Ident.decode id.toJson.compress = .ok id) := by
  have hupdate : (Source.streamed 0).HasRoom 2 := Source.hasRoom_start (by decide)
  have hevent : (Source.streamed 0).HasRoom 3 := Source.hasRoom_start (by decide)
  have henvelope : (Source.streamed 0).HasRoom 4 := Source.hasRoom_start (by decide)
  refine ⟨fun r finite => ?_, fun r finite => ?_, fun u finite => ?_, fun u finite => ?_,
    fun u finite => ?_, fun e finite => ?_, fun e finite => ?_, fun c words => ?_, fun id => ?_,
    fun id => ?_⟩
  · exact decodeText_compress (@NewRecord.fits_toJson 0 r finite).writable
      (NewRecord.decode_toJson finite)
  · exact decodeText_compress (@Record.fits_toJson 0 r finite).writable
      (Record.decode_toJson finite)
  · exact decodeText_compress (fits_record (@FullReplace.fits_members 0 u finite)).writable
      (FullReplace.decode_toJson finite)
  · exact decodeText_compress (fits_record (@SparsePatch.fits_members 0 u finite)).writable
      (SparsePatch.decode_toJson finite)
  · exact decodeText_compress (@RecordUpdate.fits_toJson 0 u finite).writable
      (RecordUpdate.decode_toJson hupdate finite)
  · exact decodeText_compress (@DomainEvent.fits_toJson 0 e finite).writable
      (DomainEvent.decode_toJson hevent finite)
  · exact decodeText_compress (@EventEnvelope.fits_toJson 0 e finite).writable
      (EventEnvelope.decode_toJson henvelope finite)
  · exact decodeText_compress (@FailureCounts.fits_toJson 0 c words).writable
      (FailureCounts.decode_toJson words)
  · exact decodeText_compress (@Ident.fits_toJson 0 .record id).writable (Ident.decode_toJson _ id)
  · exact decodeText_compress (@Ident.fits_toJson 0 .event id).writable (Ident.decode_toJson _ id)

/-- Among these values: the first and the last moment, the latter within a leap second, both ends of
the integers, negative zero and the least and the greatest weight, and texts that need escapes. -/
theorem extreme_texts_read_back : ∃ first leap : Timestamp,
    first.toChars = "-262143-01-01T00:00:00Z".toList ∧
    leap.toChars = "+262142-12-31T23:59:60.999999999Z".toList ∧
    (let r : NewRecord := ⟨"\"\\\n\x01\u1f60", Int64.minValue, .ofRank true 0, []⟩
     decodeText NewRecord.decode r.toJson.compress = .ok r) ∧
    (let r : Record := ⟨.ofNat 0, "", Int64.maxValue, .ofRank false 1, [""], first, none⟩
     decodeText Record.decode r.toJson.compress = .ok r) ∧
    (let u : FullReplace :=
        ⟨.ofNat 1, "\t", -1, .ofRank true (Binary64.finiteCount - 1), ["a", "a"]⟩
     decodeText FullReplace.decode u.toJson.compress = .ok u) ∧
    (let u : SparsePatch := ⟨.ofNat 2, .absent, .absent, .absent, .present []⟩
     decodeText SparsePatch.decode u.toJson.compress = .ok u) ∧
    (let u : RecordUpdate :=
        .patch ⟨.ofNat 3, .present "", .present 0, .present (.ofRank false 7), .absent⟩
     decodeText RecordUpdate.decode u.toJson.compress = .ok u) ∧
    (let e : DomainEvent :=
        .updated ⟨.ofNat 4, "x", 5, .ofRank false 6, [], first, some leap⟩
     decodeText DomainEvent.decode e.toJson.compress = .ok e) ∧
    (let e : EventEnvelope := ⟨.ofNat (Ident.count - 1), leap, .deleted (.ofNat 8)⟩
     decodeText EventEnvelope.decode e.toJson.compress = .ok e) ∧
    (let c : FailureCounts := ⟨18446744073709551615, 0, 1, 2⟩
     decodeText FailureCounts.decode c.toJson.compress = .ok c) ∧
    (let id : RecordId := .ofNat 9; decodeText Ident.decode id.toJson.compress = .ok id) ∧
    (let id : EventId := .ofNat 10; decodeText Ident.decode id.toJson.compress = .ok id) := by
  obtain ⟨hnew, hrecord, hreplace, hpatch, hupdate, hevent, henvelope, hcounts, hrecordId,
    heventId⟩ := texts_read_back
  refine ⟨⟨firstDay, 0, 0, by decide, by decide, by decide, by decide, by decide⟩,
    ⟨lastDay, 86399, 1999999999, by decide, by decide, by decide, by decide, by decide⟩,
    by decide, by decide, hnew _ rfl, hrecord _ rfl, hreplace _ rfl, hpatch _ nofun, hupdate _ ?_,
    hevent _ ?_, henvelope _ nofun, hcounts _ ?_, hrecordId _, heventId _⟩
  · rintro weight ⟨⟩
    rfl
  · rintro weight ⟨⟩
    rfl
  · exact ⟨by decide, by decide, by decide, by decide⟩

end CacheAside
