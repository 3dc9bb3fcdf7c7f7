import CacheAside.Proofs.RoundTrip.Grammar
import CacheAside.Proofs.RoundTrip.Layout
import CacheAside.Proofs.RoundTrip.Values
import CacheAside.Proofs.Store
import CacheAside.Wire.Page

/-!
# Texts that are written anyhow

Each type that is read from a text has its layout, and each decoder is indifferent to how objects of
its layout are written.  So it is for texts, since the reader finds in a text what the grammar says
(`Json.isText_iff`).
-/

namespace CacheAside

open Json

variable {depth : Nat} {source : Source}

/-! ## Each type -/

namespace NewRecord

def layout : Layout :=
  .fields (Layout.plain ["label", "value", "weight", "tags"])

theorem indifferent : layout.Indifferent depth (decode source) := by
  apply @Shape.indifferent_plain _ shape source depth _ rfl (decode source) _ fun _ => rfl
  intro fields fields' same
  simp only [Fields.required, Fields.optional, same]

end NewRecord

namespace Record

def layout : Layout :=
  .fields (Layout.plain ["id", "label", "value", "weight", "tags", "created_at", "updated_at"])

theorem indifferent : layout.Indifferent depth (decode source) := by
  apply @Shape.indifferent_plain _ shape source depth _ rfl (decode source) _ fun _ => rfl
  intro fields fields' same
  simp only [Fields.required, Fields.optional, same]

end Record

namespace Page

def layout : Layout :=
  .fields (Layout.plain ["offset", "limit"])

theorem indifferent : layout.Indifferent depth (decode source) := by
  apply @Shape.indifferent_plain _ shape source depth _ rfl (decode source) _ fun _ => rfl
  intro fields fields' same
  simp only [Fields.required, Fields.optional, same]

end Page

namespace FailureCounts

def layout : Layout :=
  .fields (Layout.plain ["cache_get", "cache_set", "cache_delete", "event_publish"])

theorem indifferent : layout.Indifferent depth (decode source) := by
  apply @Shape.indifferent_plain _ shape source depth _ rfl (decode source) _ fun _ => rfl
  intro fields fields' same
  simp only [Fields.required, same]

end FailureCounts

namespace FullReplace

def layout : Layout :=
  .fields (Layout.plain ["id", "label", "value", "weight", "tags"])

theorem indifferent : layout.Indifferent depth (decode source) := by
  apply @Shape.indifferent_plain _ shape source depth _ rfl (decode source) _ fun _ => rfl
  intro fields fields' same
  simp only [Fields.required, Fields.optional, same]

end FullReplace

namespace SparsePatch

def layout : Layout :=
  .fields (Layout.plain ["id", "label", "value", "weight", "tags"])

theorem indifferent : layout.Indifferent depth (decode source) := by
  apply @Shape.indifferent_plain _ shape source depth _ rfl (decode source) _ fun _ => rfl
  intro fields fields' same
  simp only [Fields.required, Fields.optional, same]

end SparsePatch

namespace RecordUpdate

/-- The tag, and the fields of the form that it says. -/
def layout : Layout :=
  .tagged "mode"
    [("replace", Layout.plain ["id", "label", "value", "weight", "tags"]),
      ("patch", Layout.plain ["id", "label", "value", "weight", "tags"])]

theorem indifferent (at_ : source.At depth) : layout.Indifferent depth (decode source) := by
  apply @Tagged.indifferent _ _ tagged _ source depth at_ (decode source) _ fun _ => rfl
  intro name mode known
  obtain ⟨rfl, rfl⟩ | ⟨rfl, rfl⟩ : name = "replace" ∧ mode = .replace ∨
      name = "patch" ∧ mode = .patch := by
    simpa [tagged] using List.mem_of_find?_eq_some known
  · exact ⟨_, rfl, by simp [tagged, Layout.plain],
      (@FullReplace.indifferent depth .buffered).map RecordUpdate.replace⟩
  · exact ⟨_, rfl, by simp [tagged, Layout.plain],
      (@SparsePatch.indifferent depth .buffered).map RecordUpdate.patch⟩

end RecordUpdate

namespace DomainEvent

/-- The tag, and the record or the identifier that goes with it. -/
def layout : Layout :=
  .tagged "type"
    [("record_created", [("record", some Record.layout)]),
      ("record_updated", [("record", some Record.layout)]),
      ("record_deleted", Layout.plain ["id"])]

/-- The content of an event that carries a record. -/
theorem indifferent_record (kind : String) (event : Record → DomainEvent) :
    (Layout.fields [("record", some Record.layout)]).Indifferent depth fun content =>
      (recordShape kind).fieldsOf .buffered content >>= fun fields =>
        event <$> fields.required .buffered "record" Record.decode := by
  have hrecord {inner : Layout} (h : ("record", some inner) ∈ [("record", some Record.layout)]) :
      inner.Indifferent (depth + 1) (Record.decode .buffered) := by
    simp only [List.mem_singleton, Prod.mk.injEq, Option.some.injEq, true_and] at h
    rw [h]
    exact Record.indifferent
  apply Shape.indifferent rfl _ (fun _ => rfl)
  · intro fields fields' e agrees given
    obtain ⟨r, hr, rfl⟩ := map_eq_ok.mp given
    exact map_eq_ok.mpr ⟨r, agrees.required (fun inner h => hrecord h) hr, rfl⟩
  · intro field hfield inner hmem
    obtain rfl := List.mem_singleton.mp hfield
    exact (hrecord hmem).map fun _ => ()

theorem indifferent (at_ : source.At depth) : layout.Indifferent depth (decode source) := by
  apply @Tagged.indifferent _ _ tagged _ source depth at_ (decode source) _ fun _ => rfl
  intro name kind known
  obtain ⟨rfl, rfl⟩ | ⟨rfl, rfl⟩ | ⟨rfl, rfl⟩ : name = "record_created" ∧ kind = .created ∨
      name = "record_updated" ∧ kind = .updated ∨ name = "record_deleted" ∧ kind = .deleted := by
    simpa [tagged] using List.mem_of_find?_eq_some known
  · exact ⟨_, rfl, by simp [tagged], indifferent_record "RecordCreated" .created⟩
  · exact ⟨_, rfl, by simp [tagged], indifferent_record "RecordUpdated" .updated⟩
  · refine ⟨_, rfl, by simp [tagged, Layout.plain], ?_⟩
    apply @Shape.indifferent_plain _ deletedShape .buffered depth _ rfl _ _ fun _ => rfl
    intro fields fields' same
    simp only [Fields.required, same]

end DomainEvent

namespace EventEnvelope

def layout : Layout :=
  .fields [("event_id", none), ("occurred_at", none), ("event", some DomainEvent.layout)]

theorem indifferent (at_ : source.At depth) : layout.Indifferent depth (decode source) := by
  have hevent {name : String} {inner : Layout} (h : (name, some inner) ∈
      [("event_id", none), ("occurred_at", none), ("event", some DomainEvent.layout)]) :
      name = "event" ∧ inner.Indifferent (depth + 1) (DomainEvent.decode source.inner) := by
    simp only [List.mem_cons, Prod.mk.injEq, reduceCtorEq, and_false, Option.some.injEq,
      List.not_mem_nil, or_false, false_or] at h
    rw [h.2]
    exact ⟨h.1, DomainEvent.indifferent at_.inner⟩
  apply @Shape.indifferent _ shape _ source depth rfl _ (decode source) _ fun _ => rfl
  · intro fields fields' e agrees given
    obtain ⟨eventId, hid, given⟩ := bind_eq_ok.mp given
    obtain ⟨occurredAt, htime, given⟩ := bind_eq_ok.mp given
    obtain ⟨event, hgiven, given⟩ := bind_eq_ok.mp given
    have hid' := agrees.required (fun inner h => absurd (hevent h).1 (by decide)) hid
    have htime' := agrees.required (fun inner h => absurd (hevent h).1 (by decide)) htime
    have hgiven' := agrees.required (fun inner h => (hevent h).2) hgiven
    exact bind_eq_ok.mpr ⟨_, hid', bind_eq_ok.mpr ⟨_, htime', bind_eq_ok.mpr ⟨_, hgiven', given⟩⟩⟩
  · intro field hfield inner hmem
    obtain ⟨hname, hindifferent⟩ := hevent hmem
    simp only [shape, List.mem_cons, List.not_mem_nil, or_false] at hfield
    rcases hfield with rfl | rfl | rfl
    · exact absurd hname (by decide)
    · exact absurd hname (by decide)
    · exact hindifferent.map fun _ => ()

end EventEnvelope

/-! ## Texts -/

/-- Texts of values of a layout are decoded to the same however they are written. -/
structure Layout.IndifferentTexts {α : Type} (layout : Layout) (decode : Decoder α) : Prop where
  /-- Blanks between tokens make no difference. -/
  respaced : ∀ (text text' : String) (j : Json) (a : α), IsText text j →
    tokens text'.toList = tokens text.toList → decodeText decode text = .ok a →
      decodeText decode text' = .ok a
  /-- Nor does the order of members, nor members whose names nobody knows. -/
  rearranged : ∀ (text text' : String) (j j' : Json) (a : α), IsText text j → IsText text' j' →
    Relation.ReflTransGen (layout.Step 0) j j' → decodeText decode text = .ok a →
      decodeText decode text' = .ok a
  /-- A known name does not come twice. -/
  once : ∀ (text : String) (j : Json), (Document.read text).root = j → layout.Repeats j →
    ∀ a : α, decodeText decode text ≠ .ok a

theorem Layout.Indifferent.texts {α : Type} {layout : Layout} {decode : Decoder α}
    (h : layout.Indifferent 0 (decode (.streamed 0))) : layout.IndifferentTexts decode := by
  have hrearranged {text text' : String} {j j' : Json} {a : α} (written : IsText text j)
      (written' : IsText text' j') (steps : Relation.ReflTransGen (layout.Step 0) j j')
      (decoded : decodeText decode text = .ok a) : decodeText decode text' = .ok a := by
    obtain ⟨hread, -⟩ := isText_iff.mp written
    obtain ⟨hread', -⟩ := isText_iff.mp written'
    rw [decodeText_eq_ok, hread] at decoded
    rw [decodeText_eq_ok, hread']
    exact ⟨rfl, h.keeps_all steps decoded.2⟩
  refine ⟨fun text text' j a written same decoded => ?_,
    fun text text' j j' a written written' steps decoded =>
      hrearranged written written' steps decoded, fun text j root repeats a decoded => ?_⟩
  · exact hrearranged written (isText_congr same written) .refl decoded
  · obtain ⟨-, hdecode⟩ := decodeText_eq_ok.mp decoded
    rw [root] at hdecode
    exact h.once repeats hdecode

/-- The start of a text stands inside no container. -/
theorem Source.at_start : (Source.streamed 0).At 0 := by
  rintro outer ⟨⟩
  rfl

/-- No decoder minds the order of members, blanks between tokens or members whose names it does not
know, in the object itself or in the records and events inside it; and none takes a known name
twice. -/
theorem texts_decoded_alike :
    NewRecord.layout.IndifferentTexts NewRecord.decode ∧
    Record.layout.IndifferentTexts Record.decode ∧
    Page.layout.IndifferentTexts Page.decode ∧
    FullReplace.layout.IndifferentTexts FullReplace.decode ∧
    SparsePatch.layout.IndifferentTexts SparsePatch.decode ∧
    RecordUpdate.layout.IndifferentTexts RecordUpdate.decode ∧
    DomainEvent.layout.IndifferentTexts DomainEvent.decode ∧
    EventEnvelope.layout.IndifferentTexts EventEnvelope.decode ∧
    FailureCounts.layout.IndifferentTexts FailureCounts.decode :=
  ⟨NewRecord.indifferent.texts, Record.indifferent.texts, Page.indifferent.texts,
    FullReplace.indifferent.texts, SparsePatch.indifferent.texts,
    (RecordUpdate.indifferent Source.at_start).texts,
    (DomainEvent.indifferent Source.at_start).texts,
    (EventEnvelope.indifferent Source.at_start).texts, FailureCounts.indifferent.texts⟩

/-- The compact text of a tree that fits is JSON. -/
theorem isText_compress {j : Json} (fits : j.Fits depth) : IsText j.compress j :=
  isText_iff.mpr ⟨Document.read_compress fits.writable,
    Layout.intact_of_storable j depth fits.storable⟩

/-- An envelope with the event in front, the type behind the record, and these members in the
record. -/
def EventEnvelope.shuffled (e : EventEnvelope) (members : List (String × Json)) : Json :=
  .record [("event", .record [("record", .record members), ("type", .text "record_created")]),
    ("event_id", e.eventId.toJson), ("occurred_at", .text e.occurredAt.toText)]

/-- A member that nobody knows in the record, and a blank in front of the text, change nothing; a
second label does. -/
theorem shuffled_event_decoded_alike :
    let r := Record.draft 2
    let e : EventEnvelope := ⟨.ofNat 7, .minute 3, .created r⟩
    ∃ members, r.toJson = .record members ∧
      decodeText EventEnvelope.decode
        (" " ++ (e.shuffled (("extra", .null) :: members)).compress) = .ok e ∧
      ∀ e', decodeText EventEnvelope.decode
        (e.shuffled (("label", .null) :: members)).compress ≠ .ok e' := by
  intro r e
  obtain ⟨-, -, -, -, -, -, -, ⟨hrespaced, hrearranged, honce⟩, -⟩ := texts_decoded_alike
  have hfinite : ∀ weight ∈ e.event.weight?, weight.isFinite = true := by
    rintro _ ⟨⟩
    rfl
  obtain ⟨updated, hmembers, hupdated, -⟩ := r.toJson_eq
  generalize hlist : [("id", r.id.toJson), ("label", .text r.label), ("value", .int r.value.toInt),
    ("weight", .real r.weight), ("tags", textsToJson r.tags),
    ("created_at", .text r.createdAt.toText), ("updated_at", updated)] = members at hmembers
  have hfits (name : String) : (e.shuffled ((name, .null) :: members)).Fits 4 := by
    have hinside : ∀ member ∈ (name, Json.null) :: members, member.2.Fits 1 := by
      subst hlist
      simp only [List.forall_mem_cons]
      exact ⟨fits_null, Ident.fits_toJson _, fits_text _, fits_int64 _, fits_real rfl,
        fits_texts _, fits_text _, hupdated _, nofun⟩
    refine fits_record (List.forall_mem_cons.mpr ⟨fits_record ?_, ?_⟩)
    · simpa using ⟨fits_record hinside, fits_text _⟩
    · simpa using ⟨Ident.fits_toJson _, fits_text _⟩
  have hevent (event : Json) (others : List (Json.Text × Json)) :
      ("event", some DomainEvent.layout) ∈
        EventEnvelope.layout.known ((some "event", event) :: others) := by
    simp [EventEnvelope.layout, Layout.known]
  have hrecord (inner : Json) : ("record", some Record.layout) ∈ DomainEvent.layout.known
      [(some "record", inner), (some "type", .text "record_created")] := by
    simp [DomainEvent.layout, Layout.known, Layout.variant, valuesOf, text]
  refine ⟨members, hmembers, ?_, ?_⟩
  · have hmore : Record.layout.Step 2 r.toJson (.record (("extra", .null) :: members)) := by
      rw [hmembers]
      refine .more (fun inner hmem => ?_) (by simp [storable])
      simp [Record.layout, Layout.known, Layout.plain] at hmem
    have htypeLast : DomainEvent.layout.Step 1 e.event.toJson
        (.record [("record", r.toJson), ("type", .text "record_created")]) :=
      .order (.swap _ _ _)
    have heventFirst : EventEnvelope.layout.Step 0 e.toJson
        (.record [("event", e.event.toJson), ("event_id", e.eventId.toJson),
          ("occurred_at", .text e.occurredAt.toText)]) :=
      .order (@List.perm_append_comm _ [_, _] [_])
    have hsteps : Relation.ReflTransGen (EventEnvelope.layout.Step 0) e.toJson
        (e.shuffled (("extra", .null) :: members)) :=
      .tail (.tail (.single heventFirst) (.member (hevent _ _) htypeLast))
        (.member (hevent _ _) (.member (hrecord _) hmore))
    have hwhole : e.toJson.Fits 4 := EventEnvelope.fits_toJson hfinite
    have hdecoded := decodeText_compress hwhole.writable
      (EventEnvelope.decode_toJson (Source.hasRoom_start (by decide)) hfinite)
    have hwritten := isText_compress (hfits "extra")
    have hshuffled := hrearranged _ _ _ _ e (isText_compress hwhole) hwritten hsteps hdecoded
    refine hrespaced _ _ _ e hwritten ?_ hshuffled
    rw [String.toList_append]
    exact tokens_cons_space rfl _
  · refine honce _ _ (congrArg Document.root (Document.read_compress (hfits "label").writable)) ?_
    have hlabel (inside : List (Json.Text × Json)) :
        ("label", none) ∈ Record.layout.known inside := by
      simp [Record.layout, Layout.known, Layout.plain]
    have htwice : Record.layout.Repeats (.record (("label", .null) :: members)) := by
      refine .here (hlabel _) ?_
      subst hlist
      simp [valuesOf]
    exact .member (hevent _ _) List.mem_cons_self
      (.member (hrecord _) List.mem_cons_self htwice)

end CacheAside
