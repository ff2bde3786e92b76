import QuorumKeeper.Proofs.MessageMerge

/-!
# Fields that a schema does not have

A newer server may send fields that are not known here. `IsField` says what a field looks like on
the wire, whatever the schema: a key with its number and the form of its content, and the content.
Every such field is one record (`IsField.takes`), and a record whose number the schema does not have
changes nothing, so that it might as well not be there (`Schema.decodeOnto_unknown`).

A field that is known is different: it has a form of its own, `MessageType.forms` lists them, and a
key with its number and another form is the end of decoding, whatever follows
(`Schema.decodeOnto_mistaken`).
-/

set_option autoImplicit false

namespace QuorumKeeper.Wire

variable {M N : Type}

/-! ## Fields on the wire -/

/-- The bytes are the content of a field. A group is no content, since it has fields of its own. -/
inductive Content : Form → Bytes → Prop where
  | varint {s : Bytes} {n : Nat} (number : Spelling s n) : Content .varint s
  | fixed64 {s : Bytes} (size : s.length = 8) : Content .fixed64 s
  | bytes {size b : Bytes} (length : Spelling size b.length) : Content .bytes (size ++ b)
  | fixed32 {s : Bytes} (size : s.length = 4) : Content .fixed32 s

/-- The bytes are a field: its key with the content behind it. -/
inductive IsField (number : Nat) (form : Form) : Bytes → Prop where
  | intro {key content : Bytes} (begins : IsKey number form key) (holds : Content form content) :
      IsField number form (key ++ content)

/-- The form in which a payload is written. -/
def Payload.form : Payload → Form
  | varint _ => .varint
  | bytes _ => .bytes
  | fixed64 => .fixed64
  | fixed32 => .fixed32
  | group => .startGroup

theorem splitBytes_of_length {n : Nat} {s : Bytes} (h : s.length = n) : Takes (splitBytes n) s s := by
  intro more
  rw [← h]
  exact splitBytes_append s more

/-- A field is read as one record with its number. -/
theorem IsField.takes {number : Nat} {form : Form} {field : Bytes} (h : IsField number form field)
    (depth : Nat) : ∃ payload, Takes (readRecord (depth + 1)) field ⟨number, payload⟩ := by
  obtain ⟨begins, holds⟩ := h
  cases holds with
  | @varint s n spelled =>
    refine ⟨.varint n.toUInt64, fun more => ?_⟩
    simp only [readRecord, List.append_assoc, begins.read, spelled.takes more, Option.map_some]
  | @fixed64 s size =>
    refine ⟨.fixed64, fun more => ?_⟩
    simp only [readRecord, List.append_assoc, begins.read, skipField,
      splitBytes_of_length size more, Option.map_some]
  | @bytes size b length =>
    refine ⟨.bytes b, fun more => ?_⟩
    have hbytes := readBytes_spelling length more
    rw [List.append_assoc] at hbytes
    simp only [readRecord, List.append_assoc, begins.read, hbytes, Option.map_some]
  | @fixed32 s size =>
    refine ⟨.fixed32, fun more => ?_⟩
    simp only [readRecord, List.append_assoc, begins.read, skipField,
      splitBytes_of_length size more, Option.map_some]

/-- The key decides about number and form of a record. -/
theorem record_of_key {depth number : Nat} {form : Form} {s rest left : Bytes} {r : Record}
    (hkey : readKey s = some (number, form, rest)) (h : readRecord depth s = some (r, left)) :
    r.number = number ∧ r.payload.form = form := by
  rw [readRecord, hkey] at h
  cases form with
  | endGroup => cases h
  | _ =>
    obtain ⟨p, -, heq⟩ := Option.map_eq_some_iff.1 h
    cases heq
    exact ⟨rfl, rfl⟩

/-! ## The forms of known fields -/

namespace Field

/-- The field takes in payloads of one form only. -/
def Demands (f : Field M) (form : Form) : Prop :=
  ∀ depth p m, p.form ≠ form → f.absorb depth p m = none

/-- The field has the number and the form of the entry. -/
def Fits (f : Field M) (entry : Nat × Form) : Prop :=
  f.number = entry.1 ∧ f.Demands entry.2

/-- A field that takes varints alone fits the varint form. -/
theorem fits_varint {f : Field M} {number : Nat} (hnumber : f.number = number)
    (hrefuses : ∀ depth m, (∀ b, f.absorb depth (.bytes b) m = none) ∧
      ∀ p ∈ [Payload.fixed64, .fixed32, .group], f.absorb depth p m = none) :
    f.Fits (number, .varint) := by
  refine ⟨hnumber, fun depth p m hp => ?_⟩
  obtain ⟨hbytes, hothers⟩ := hrefuses depth m
  cases p with
  | varint n => exact absurd rfl hp
  | bytes b => exact hbytes b
  | _ => exact hothers _ (by simp)

/-- A field that takes bytes alone fits the bytes form. -/
theorem fits_bytes {f : Field M} {number : Nat} (hnumber : f.number = number)
    (hrefuses : ∀ depth m, (∀ n, f.absorb depth (.varint n) m = none) ∧
      ∀ p ∈ [Payload.fixed64, .fixed32, .group], f.absorb depth p m = none) :
    f.Fits (number, .bytes) := by
  refine ⟨hnumber, fun depth p m hp => ?_⟩
  obtain ⟨hvarint, hothers⟩ := hrefuses depth m
  cases p with
  | varint n => exact hvarint n
  | bytes b => exact absurd rfl hp
  | _ => exact hothers _ (by simp)

theorem word_fits (number : Nat) (get : M → UInt64) (set : M → UInt64 → M) :
    (word number get set).Fits (number, .varint) :=
  fits_varint rfl fun _ _ => by simp [word]

theorem signed_fits (number : Nat) (get : M → Int64) (set : M → Int64 → M) :
    (signed number get set).Fits (number, .varint) :=
  word_fits number _ _

theorem flag_fits (number : Nat) (get : M → Bool) (set : M → Bool → M) :
    (flag number get set).Fits (number, .varint) :=
  fits_varint rfl fun _ _ => by simp [flag]

theorem text_fits (number : Nat) (get : M → String) (set : M → String → M) :
    (text number get set).Fits (number, .bytes) :=
  fits_bytes rfl fun _ _ => by simp [text]

theorem texts_fits (number : Nat) (get : M → List String) (set : M → List String → M) :
    (texts number get set).Fits (number, .bytes) :=
  fits_bytes rfl fun _ _ => by simp [texts]

theorem message_fits (number : Nat) (schema : Schema N) (get : M → Option N)
    (set : M → Option N → M) : (message number schema get set).Fits (number, .bytes) :=
  fits_bytes rfl fun _ _ => by simp [message]

theorem messages_fits (number : Nat) (schema : Schema N) (get : M → List N)
    (set : M → List N → M) : (messages number schema get set).Fits (number, .bytes) :=
  fits_bytes rfl fun _ _ => by simp [messages]

end Field

namespace Schema

variable {schema : Schema M}

/-- The schema has a field for each entry, in order, and no other fields. -/
def Declares (schema : Schema M) (forms : List (Nat × Form)) : Prop :=
  List.Forall₂ Field.Fits schema.fields forms

theorem Declares.numbers_eq {forms : List (Nat × Form)} (h : schema.Declares forms) :
    schema.fields.map Field.number = forms.map Prod.fst := by
  unfold Declares at h
  generalize schema.fields = fields at h
  induction h with
  | nil => rfl
  | cons first _ ih => rw [List.map_cons, List.map_cons, first.1, ih]

theorem Declares.exists_field {forms : List (Nat × Form)} (h : schema.Declares forms) {number : Nat}
    {form : Form} (hentry : (number, form) ∈ forms) :
    ∃ f ∈ schema.fields, f.number = number ∧ f.Demands form := by
  unfold Declares at h
  generalize schema.fields = fields at h
  induction h with
  | nil => cases hentry
  | @cons f entry fields forms first _ ih =>
    rcases List.mem_cons.1 hentry with rfl | hentry
    · exact ⟨f, List.mem_cons_self, first.1, first.2⟩
    · obtain ⟨g, hg, hdemands⟩ := ih hentry
      exact ⟨g, List.mem_cons_of_mem f hg, hdemands⟩

/-- A field with a number that the schema does not have is passed over. -/
theorem decodeOnto_unknown {depth number : Nat} {form : Form} {field : Bytes}
    (hfield : IsField number form field) (hnumber : number ∉ schema.fields.map Field.number) (m : M)
    (b : Bytes) : schema.decodeOnto (depth + 1) m (field ++ b) = schema.decodeOnto (depth + 1) m b := by
  obtain ⟨payload, htakes⟩ := hfield.takes depth
  have hrecords : Holds (depth + 1) field [⟨number, payload⟩] := by
    have hone := Holds.cons htakes .nil
    rwa [List.append_nil] at hone
  have hnone : schema.fields.find? (·.number == number) = none := by
    rw [List.find?_eq_none]
    intro f hf heq
    exact hnumber (beq_iff_eq.1 heq ▸ List.mem_map_of_mem hf)
  refine decodeOnto_append (decodeOnto_eq_some_iff.2 ⟨_, hrecords, ?_⟩) b
  simp [absorb, hnone]

/-- A key with a known number and a form that is not that of the field ends decoding. -/
theorem decodeOnto_mistaken {depth number : Nat} {form declared : Form} {key : Bytes}
    (hnumbers : schema.Numbered) (hfield : ∃ f ∈ schema.fields, f.number = number ∧ f.Demands declared)
    (hform : form ≠ declared) (hkey : IsKey number form key) (m : M) (rest : Bytes) :
    schema.decodeOnto depth m (key ++ rest) = none := by
  obtain ⟨f, hf, rfl, hdemands⟩ := hfield
  rw [Option.eq_none_iff_forall_ne_some]
  intro n hn
  obtain ⟨records, hrecords, htake⟩ := decodeOnto_eq_some_iff.1 hn
  have hne : key ++ rest ≠ [] := by simp [hkey.ne_nil]
  obtain ⟨r, left, others, hread, -, rfl⟩ := (holds_iff_of_ne_nil hne).1 hrecords
  obtain ⟨hnumber, hpayload⟩ := record_of_key (hkey.read rest) hread
  -- the first record is that of the key, and the field does not take it in
  have hrefused : schema.absorb depth m r = none := by
    rw [absorb, hnumber, find?_number hnumbers.1 hf]
    exact hdemands depth r.payload m (hpayload ▸ hform)
  rw [List.foldlM_cons, hrefused] at htake
  cases htake

end Schema

/-! ## The ten messages -/

namespace MessageType

/-- The numbers of the fields of a type of messages, each with the form of its content. -/
def forms : MessageType → List (Nat × Form)
  | responseHeader => [(1, .varint), (2, .varint), (3, .varint), (4, .varint)]
  | member => [(1, .varint), (2, .bytes), (3, .bytes), (4, .bytes), (5, .varint)]
  | memberListRequest => [(1, .varint)]
  | memberListResponse => [(1, .bytes), (2, .bytes)]
  | memberRemoveRequest => [(1, .varint)]
  | memberRemoveResponse => [(1, .bytes), (2, .bytes)]
  | statusRequest => []
  | statusResponse =>
    [(1, .bytes), (2, .bytes), (3, .varint), (4, .varint), (5, .varint), (6, .varint),
      (7, .varint), (8, .bytes), (9, .varint), (10, .varint)]
  | moveLeaderRequest => [(1, .varint)]
  | moveLeaderResponse => [(1, .bytes)]

open Wire.Field in
/-- Each message's schema declares the forms of its type. -/
theorem schema_declares (t : MessageType) : t.schema.Declares t.forms := by
  cases t with
  | responseHeader =>
    exact .cons (word_fits _ _ _) <| .cons (word_fits _ _ _) <| .cons (signed_fits _ _ _) <|
      .cons (word_fits _ _ _) .nil
  | member =>
    exact .cons (word_fits _ _ _) <| .cons (text_fits _ _ _) <| .cons (texts_fits _ _ _) <|
      .cons (texts_fits _ _ _) <| .cons (flag_fits _ _ _) .nil
  | memberListRequest => exact .cons (flag_fits _ _ _) .nil
  | memberListResponse =>
    exact .cons (message_fits _ _ _ _) <| .cons (messages_fits _ _ _ _) .nil
  | memberRemoveRequest => exact .cons (word_fits _ _ _) .nil
  | memberRemoveResponse =>
    exact .cons (message_fits _ _ _ _) <| .cons (messages_fits _ _ _ _) .nil
  | statusRequest => exact .nil
  | statusResponse =>
    exact .cons (message_fits _ _ _ _) <| .cons (text_fits _ _ _) <| .cons (signed_fits _ _ _) <|
      .cons (word_fits _ _ _) <| .cons (word_fits _ _ _) <| .cons (word_fits _ _ _) <|
      .cons (word_fits _ _ _) <| .cons (texts_fits _ _ _) <| .cons (signed_fits _ _ _) <|
      .cons (flag_fits _ _ _) .nil
  | moveLeaderRequest => exact .cons (word_fits _ _ _) .nil
  | moveLeaderResponse => exact .cons (message_fits _ _ _ _) .nil

/-- No message uses a field number twice. -/
theorem schema_numbered (t : MessageType) : t.schema.Numbered := by
  cases t <;> decide

end MessageType

/-- Behind bytes that can be decoded, a field whose number the type of messages does not have makes
no difference, whatever its content and whatever comes after it: either both texts are refused, or
both give the same value. Where the number is one of the type and the form is not the one that goes
with it, nothing is decoded, whatever comes after the key. -/
theorem unknown_fields_passed_over (t : MessageType) (a : Bytes) (u : t.Value)
    (ha : t.schema.decode a = some u) :
    (∀ number form field b, IsField number form field → number ∉ t.forms.map Prod.fst →
      t.schema.decode (a ++ field ++ b) = t.schema.decode (a ++ b)) ∧
    ∀ number declared form key rest, (number, declared) ∈ t.forms → form ≠ declared →
      IsKey number form key → t.schema.decode (a ++ key ++ rest) = none := by
  have hdeclares := t.schema_declares
  constructor
  · intro number form field b hfield hnumber
    rw [← hdeclares.numbers_eq] at hnumber
    rw [Schema.decode, Schema.decode, List.append_assoc, Schema.decodeOnto_append ha,
      Schema.decodeOnto_append ha]
    exact Schema.decodeOnto_unknown hfield hnumber u b
  · intro number declared form key rest hentry hform hkey
    rw [Schema.decode, List.append_assoc, Schema.decodeOnto_append ha]
    exact Schema.decodeOnto_mistaken t.schema_numbered (hdeclares.exists_field hentry) hform hkey u
      rest

/-- In the state of a member, an unknown field whose key and number are spelled with a byte more
than they need is passed over, and the leader behind it is read; a text in the leader's place is the
end of decoding. -/
theorem unknown_number_passed_over :
    MessageType.statusResponse.schema.decode ([18, 1, 51] ++ [224, 0, 133, 0] ++ [32, 7]) =
        some { version := "3", leader := 7 } ∧
      MessageType.statusResponse.schema.decode ([18, 1, 51] ++ [34] ++ [1, 65]) = none := by
  have hfront : statusResponse.decode [18, 1, 51] = some { version := "3" } := by decide +kernel
  have hwhole : statusResponse.decode ([18, 1, 51] ++ [32, 7]) =
      some { version := "3", leader := 7 } := by decide +kernel
  have hunknown : IsField 12 .varint [224, 0, 133, 0] := by
    have hkey : Spelling [224, 0] (8 * 12 + Form.varint.code) :=
      ⟨.more (by decide) (.last (by decide)), by decide, by decide⟩
    have hnumber : Spelling [133, 0] 5 :=
      ⟨.more (by decide) (.last (by decide)), by decide, by decide⟩
    exact .intro ⟨by decide, by decide, hkey⟩ (.varint hnumber)
  have hmistaken : IsKey 4 .bytes [34] :=
    ⟨by decide, by decide, ⟨.last (by decide), by decide, by decide⟩⟩
  obtain ⟨hpassed, hended⟩ := unknown_fields_passed_over .statusResponse _ _ hfront
  refine ⟨(hpassed 12 .varint _ [32, 7] hunknown (by decide)).trans hwhole, ?_⟩
  exact hended 4 .varint .bytes _ [1, 65] (by decide) (by decide) hmistaken

end QuorumKeeper.Wire
