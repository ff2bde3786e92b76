import QuorumKeeper.Proofs.WireRecords
import QuorumKeeper.Wire.Message
import Mathlib.Data.List.Nodup

/-!
# Appending a message merges it

Bytes that decode to one message, followed by the encoding of another one, decode to the merge of
the two. `Field.Merges` says it of the records of one field: taken in one by one, they turn a value
`u` into `step u v`. A schema whose fields have numbers of their own goes through its fields in
order, so its steps in a row are its merge (`Schema.merges_of_fields`). The ten merges are spelled
out for the ten types of messages. Nothing is assumed about the bytes in front but that they can be
decoded.

Lengths are written as numbers of 64 bits. The size of a buffer is such a number, so every encoding
there can be is shorter than `2 ^ 64` bytes, and this is all that is asked of the later value.
-/

set_option autoImplicit false

namespace QuorumKeeper.Wire

variable {M N α : Type}

/-! ## Fields -/

/-- A payload of a kind that is ever written. -/
def Payload.IsWritten : Payload → Prop
  | .varint _ => True
  | .bytes _ => True
  | _ => False

/-- The length of the payload can be written. -/
def Payload.IsShort : Payload → Prop
  | .bytes b => b.length < 2 ^ 64
  | _ => True

/-- Taking in what the field writes of `v` turns `u` into `step u v`. -/
structure Field.Merges (f : Field M) (step : M → M → M) : Prop where
  writes : ∀ v, ∀ p ∈ f.emit v, p.IsWritten
  takes : ∀ depth u v, (∀ p ∈ f.emit v, p.IsShort) →
    (f.emit v).foldlM (fun m p => f.absorb depth p m) u = some (step u v)

/-- A part of a value that can be replaced. -/
structure Replaces (get : M → α) (set : M → α → M) : Prop where
  set_get : ∀ m, set m (get m) = m
  get_set : ∀ m a, get (set m a) = a
  set_set : ∀ m a b, set (set m a) b = set m b

/-- The later value, unless it is the default. -/
def later [DecidableEq α] (default : α) (u v : α) : α :=
  if v = default then u else v

theorem later_default [DecidableEq α] (default v : α) : later default default v = v := by
  unfold later
  split
  · rename_i h
    exact h.symm
  · rfl

namespace Field

/-- A number that is written again takes the place of the earlier one. -/
theorem word_merges (number : Nat) {get : M → UInt64} {set : M → UInt64 → M}
    (h : ∀ m, set m (get m) = m) :
    (word number get set).Merges fun u v => set u (later 0 (get u) (get v)) := by
  constructor
  · intro v p hp
    by_cases hzero : get v = 0
    · simp [word, hzero] at hp
    · obtain rfl : p = .varint (get v) := by simpa [word, hzero] using hp
      trivial
  · intro depth u v _
    by_cases hzero : get v = 0
    · simp [word, later, hzero, h]
    · simp [word, later, hzero]

theorem toUInt64_eq_zero_iff (x : Int64) : x.toUInt64 = 0 ↔ x = 0 := by
  constructor
  · intro hbits
    rw [← Int64.toInt64_toUInt64 x, hbits]
    rfl
  · rintro rfl
    rfl

/-- A signed number that is written again takes the place of the earlier one. -/
theorem signed_merges (number : Nat) {get : M → Int64} {set : M → Int64 → M}
    (h : ∀ m, set m (get m) = m) :
    (signed number get set).Merges fun u v => set u (later 0 (get u) (get v)) := by
  -- a signed number is written as the word of the same bits, which is zero only for zero
  have hbits : ∀ m, set m (get m).toUInt64.toInt64 = m := fun m => by
    rw [Int64.toInt64_toUInt64, h]
  have hword : (word number (fun m => (get m).toUInt64) fun m n => set m n.toInt64).Merges
      fun u v => set u (later 0 (get u).toUInt64 (get v).toUInt64).toInt64 :=
    word_merges number hbits
  have hstep : (fun u v => set u (later 0 (get u) (get v))) =
      fun u v => set u (later 0 (get u).toUInt64 (get v).toUInt64).toInt64 := by
    funext u v
    simp only [later, toUInt64_eq_zero_iff]
    split
    · rw [Int64.toInt64_toUInt64]
    · rw [Int64.toInt64_toUInt64]
  rw [hstep]
  exact hword

/-- A flag that is written again takes the place of the earlier one. -/
theorem flag_merges (number : Nat) {get : M → Bool} {set : M → Bool → M}
    (h : ∀ m, set m (get m) = m) :
    (flag number get set).Merges fun u v => set u (later false (get u) (get v)) := by
  constructor
  · intro v p hp
    cases hv : get v with
    | false => simp [flag, hv] at hp
    | true =>
      obtain rfl : p = .varint 1 := by simpa [flag, hv] using hp
      trivial
  · intro depth u v _
    cases hv : get v with
    | false => simp [flag, later, hv, h]
    | true => simp [flag, later, hv]

/-- A text that is written again takes the place of the earlier one. -/
theorem text_merges (number : Nat) {get : M → String} {set : M → String → M}
    (h : ∀ m, set m (get m) = m) :
    (text number get set).Merges fun u v => set u (later "" (get u) (get v)) := by
  constructor
  · intro v p hp
    by_cases hempty : get v = ""
    · simp [text, hempty] at hp
    · obtain rfl : p = .bytes (Text.utf8 (get v)) := by simpa [text, hempty] using hp
      trivial
  · intro depth u v _
    by_cases hempty : get v = ""
    · simp [text, later, hempty, h]
    · simp [text, later, hempty, Text.ofUtf8?_utf8]

/-- A field that may be repeated takes one item after the other in at the end. -/
theorem repeated_merges {get : M → List α} {set : M → List α → M} (h : Replaces get set)
    {take : α → M → Option M} {items : List α}
    (htake : ∀ a ∈ items, ∀ m, take a m = some (set m (get m ++ [a]))) (u : M) :
    items.foldlM (fun m a => take a m) u = some (set u (get u ++ items)) := by
  induction items generalizing u with
  | nil => simp [h.set_get]
  | cons a rest ih =>
    have hrest : ∀ b ∈ rest, ∀ m, take b m = some (set m (get m ++ [b])) :=
      fun b hb => htake b (List.mem_cons_of_mem a hb)
    rw [List.foldlM_cons, htake a List.mem_cons_self]
    show rest.foldlM _ _ = _
    rw [ih hrest, h.get_set, h.set_set, List.append_assoc, List.singleton_append]

/-- Texts that are written again come after the earlier ones. -/
theorem texts_merges (number : Nat) {get : M → List String} {set : M → List String → M}
    (h : Replaces get set) :
    (texts number get set).Merges fun u v => set u (get u ++ get v) := by
  constructor
  · intro v p hp
    obtain ⟨s, -, rfl⟩ := List.mem_map.1 hp
    trivial
  · intro depth u v _
    simp only [texts, List.foldlM_map]
    refine repeated_merges h (fun s _ m => ?_) u
    simp only [Text.ofUtf8?_utf8, Option.map_some]

end Field

/-! ## Schemas -/

/-- Taking in what is written of `v` turns `u` into `merge u v`. -/
def Schema.Merges (schema : Schema M) (merge : M → M → M) : Prop :=
  ∀ depth u v, (schema.encode v).length < 2 ^ 64 →
    schema.decodeOnto depth u (schema.encode v) = some (merge u v)

namespace Field

/-- A message that is written again is merged into the earlier one. -/
theorem message_merges (number : Nat) {schema : Schema N} {merge : N → N → N}
    {get : M → Option N} {set : M → Option N → M} (hschema : schema.Merges merge)
    (h : ∀ m, set m (get m) = m) :
    (message number schema get set).Merges fun u v =>
      set u (match get v with
        | none => get u
        | some n => some (merge ((get u).getD schema.empty) n)) := by
  constructor
  · intro v p hp
    obtain ⟨n, -, rfl⟩ := List.mem_map.1 hp
    trivial
  · intro depth u v hshort
    cases hv : get v with
    | none => simp [message, hv, h]
    | some n =>
      have hsize : (Payload.bytes (schema.encode n)).IsShort := hshort _ (by simp [message, hv])
      simp [message, hv, hschema _ _ _ hsize]

/-- Messages that are written again come after the earlier ones. -/
theorem messages_merges (number : Nat) {schema : Schema N} {merge : N → N → N}
    {get : M → List N} {set : M → List N → M} (hschema : schema.Merges merge)
    (hempty : ∀ n, merge schema.empty n = n) (h : Replaces get set) :
    (messages number schema get set).Merges fun u v => set u (get u ++ get v) := by
  constructor
  · intro v p hp
    obtain ⟨n, -, rfl⟩ := List.mem_map.1 hp
    trivial
  · intro depth u v hshort
    simp only [messages, List.foldlM_map]
    refine repeated_merges h (fun n hn m => ?_) u
    have hsize : (Payload.bytes (schema.encode n)).IsShort := hshort _ (List.mem_map_of_mem hn)
    simp only [hschema _ _ _ hsize, hempty, Option.map_some]

end Field

namespace Schema

variable {schema : Schema M}

/-- The fields have numbers of their own, which fit into a key. -/
def Numbered (schema : Schema M) : Prop :=
  (schema.fields.map Field.number).Nodup ∧
    ∀ n ∈ schema.fields.map Field.number, 1 ≤ n ∧ n < 2 ^ 29

instance : Decidable schema.Numbered :=
  inferInstanceAs (Decidable (_ ∧ _))

/-- Bytes are decoded onto a message by absorbing the records they hold. -/
theorem decodeOnto_eq_some_iff {depth : Nat} {u m : M} {s : Bytes} :
    schema.decodeOnto depth u s = some m ↔
      ∃ records, Holds depth s records ∧ records.foldlM (schema.absorb depth) u = some m := by
  simp only [← readRecords_iff, decodeOnto]
  cases readRecords depth s with
  | none => simp
  | some records => simp

/-- Bytes behind others are taken in from where those lead to, if they can be taken in at all. -/
theorem decodeOnto_append {depth : Nat} {u m : M} {s : Bytes}
    (hs : schema.decodeOnto depth u s = some m) (t : Bytes) :
    schema.decodeOnto depth u (s ++ t) = schema.decodeOnto depth m t := by
  obtain ⟨records, hrecords, htake⟩ := decodeOnto_eq_some_iff.1 hs
  ext n
  rw [decodeOnto_eq_some_iff, decodeOnto_eq_some_iff]
  constructor
  · rintro ⟨all, hall, hfold⟩
    obtain ⟨behind, hbehind, rfl⟩ := hrecords.append_iff.1 hall
    rw [List.foldlM_append, htake] at hfold
    exact ⟨behind, hbehind, hfold⟩
  · rintro ⟨behind, hbehind, hfold⟩
    refine ⟨records ++ behind, hrecords.append_iff.2 ⟨behind, hbehind, rfl⟩, ?_⟩
    rw [List.foldlM_append, htake]
    exact hfold

/-- A field is found under its number. -/
theorem find?_number {fields : List (Field M)} (hnodup : (fields.map Field.number).Nodup)
    {f : Field M} (hf : f ∈ fields) : fields.find? (·.number == f.number) = some f := by
  induction fields with
  | nil => simp at hf
  | cons g rest ih =>
    rw [List.map_cons, List.nodup_cons] at hnodup
    rcases List.mem_cons.1 hf with rfl | hf
    · simp
    · have hne : g.number ≠ f.number := fun heq => hnodup.1 (heq ▸ List.mem_map_of_mem hf)
      rw [List.find?_cons, beq_eq_false_iff_ne.2 hne]
      exact ih hnodup.2 hf

/-- The records of a message are taken in field by field. -/
theorem absorb_records (hnumbers : schema.Numbered) (depth : Nat) (u v : M) :
    (schema.records v).foldlM (schema.absorb depth) u =
      schema.fields.foldlM
        (fun m f => (f.emit v).foldlM (fun m p => f.absorb depth p m) m) u := by
  have habsorb : ∀ f ∈ schema.fields, ∀ p m,
      schema.absorb depth m ⟨f.number, p⟩ = f.absorb depth p m := by
    intro f hf p m
    simp only [absorb, find?_number hnumbers.1 hf]
  rw [records]
  suffices h : ∀ fields : List (Field M), (∀ f ∈ fields, f ∈ schema.fields) → ∀ u,
      (fields.flatMap fun f => (f.emit v).map (Record.mk f.number)).foldlM
          (schema.absorb depth) u =
        fields.foldlM (fun m f => (f.emit v).foldlM (fun m p => f.absorb depth p m) m) u from
    h schema.fields (fun _ hf => hf) u
  intro fields
  induction fields with
  | nil =>
    intro _ u
    rfl
  | cons f rest ih =>
    intro hsub u
    rw [List.flatMap_cons, List.foldlM_append, List.foldlM_cons, List.foldlM_map]
    simp only [habsorb f (hsub f List.mem_cons_self)]
    exact congrArg _ (funext fun m => ih (fun g hg => hsub g (List.mem_cons_of_mem f hg)) m)

/-- Absorbing all that the fields emit takes all their steps. -/
theorem steps_foldlM {fields : List (Field M)} {steps : List (M → M → M)}
    (h : List.Forall₂ Field.Merges fields steps) (depth : Nat) (v : M)
    (hshort : ∀ f ∈ fields, ∀ p ∈ f.emit v, p.IsShort) (u : M) :
    fields.foldlM (fun m f => (f.emit v).foldlM (fun m p => f.absorb depth p m) m) u =
      some (steps.foldl (fun m step => step m v) u) := by
  induction h generalizing u with
  | nil => rfl
  | @cons f step fields steps hstep _ ih =>
    rw [List.foldlM_cons, hstep.takes depth u v (hshort f List.mem_cons_self)]
    exact ih (fun g hg => hshort g (List.mem_cons_of_mem f hg)) (step u v)

/-- A record is no longer than the message that it is a part of. -/
theorem length_writeRecord_le {records : List Record} {r : Record} (h : r ∈ records) :
    (writeRecord r).length ≤ (records.flatMap writeRecord).length := by
  obtain ⟨before, after, rfl⟩ := List.append_of_mem h
  simp only [List.flatMap_append, List.flatMap_cons, List.length_append]
  omega

/-- The records of a message are what its fields emit. -/
theorem mem_records_iff {v : M} {r : Record} :
    r ∈ schema.records v ↔ ∃ f ∈ schema.fields, ∃ p ∈ f.emit v, r = ⟨f.number, p⟩ := by
  simp only [records, List.mem_flatMap, List.mem_map, eq_comm]

/-- What is emitted is short if the whole is. -/
theorem isShort_of_length {v : M} (hsize : (schema.encode v).length < 2 ^ 64) {f : Field M}
    (hf : f ∈ schema.fields) {p : Payload} (hp : p ∈ f.emit v) : p.IsShort := by
  have hle := length_writeRecord_le (mem_records_iff.2 ⟨f, hf, p, hp, rfl⟩)
  cases p with
  | bytes b =>
    have hb : b.length ≤ (writeRecord ⟨f.number, .bytes b⟩).length := by
      simp only [writeRecord, List.length_append]
      omega
    exact Nat.lt_of_le_of_lt (Nat.le_trans hb hle) hsize
  | _ => trivial

theorem exists_merges {fields : List (Field M)} {steps : List (M → M → M)}
    (h : List.Forall₂ Field.Merges fields steps) {f : Field M} (hf : f ∈ fields) :
    ∃ step, f.Merges step := by
  induction h with
  | nil => simp at hf
  | cons hstep _ ih =>
    rcases List.mem_cons.1 hf with rfl | hf
    · exact ⟨_, hstep⟩
    · exact ih hf

/-- What a field emits can be written as a record. -/
theorem writable_of_isWritten {number : Nat} {p : Payload} (hlow : 1 ≤ number)
    (hhigh : number < 2 ^ 29) (hwritten : p.IsWritten) (hshort : p.IsShort) :
    Record.Writable ⟨number, p⟩ := by
  refine ⟨hlow, hhigh, ?_⟩
  cases p with
  | varint n => exact .inl ⟨n, rfl⟩
  | bytes b => exact .inr ⟨b, rfl, hshort⟩
  | _ => exact hwritten.elim

/-- The fields of a schema merge one by one, in their order. -/
theorem merges_of_fields {steps : List (M → M → M)} (hnumbers : schema.Numbered)
    (h : List.Forall₂ Field.Merges schema.fields steps) :
    schema.Merges fun u v => steps.foldl (fun m step => step m v) u := by
  intro depth u v hsize
  have hshort : ∀ f ∈ schema.fields, ∀ p ∈ f.emit v, p.IsShort :=
    fun f hf p hp => isShort_of_length hsize hf hp
  have hwritable : ∀ r ∈ schema.records v, r.Writable := by
    intro r hr
    obtain ⟨f, hf, p, hp, rfl⟩ := mem_records_iff.1 hr
    obtain ⟨step, hstep⟩ := exists_merges h hf
    obtain ⟨hlow, hhigh⟩ := hnumbers.2 f.number (List.mem_map_of_mem hf)
    exact writable_of_isWritten hlow hhigh (hstep.writes v p hp) (hshort f hf p hp)
  refine decodeOnto_eq_some_iff.2 ⟨schema.records v, holds_write hwritable depth, ?_⟩
  exact (absorb_records hnumbers depth u v).trans (steps_foldlM h depth v hshort u)

end Schema

/-! ## The ten messages -/

section Messages

open Wire.Field Wire.Schema

/-- The merge of two headers. -/
def ResponseHeader.merge (u v : ResponseHeader) : ResponseHeader where
  clusterId := later 0 u.clusterId v.clusterId
  memberId := later 0 u.memberId v.memberId
  revision := later 0 u.revision v.revision
  raftTerm := later 0 u.raftTerm v.raftTerm

theorem ResponseHeader.empty_merge (h : ResponseHeader) : responseHeader.empty.merge h = h := by
  simp only [merge, responseHeader, later_default]

/-- Headers merge field by field. -/
theorem responseHeader_merges : responseHeader.Merges ResponseHeader.merge :=
  have hnumbers : responseHeader.Numbered := by decide
  merges_of_fields hnumbers <|
    .cons (word_merges 1 fun _ => rfl) <|
    .cons (word_merges 2 fun _ => rfl) <|
    .cons (signed_merges 3 fun _ => rfl) <|
    .cons (word_merges 4 fun _ => rfl) .nil

/-- A header that is absent on one side is taken from the other one. -/
def mergeHeaders : Option ResponseHeader → Option ResponseHeader → Option ResponseHeader
  | u, none => u
  | none, some h => some h
  | some g, some h => some (g.merge h)

theorem none_mergeHeaders (h : Option ResponseHeader) : mergeHeaders none h = h := by
  cases h <;> rfl

/-- Headers merge within any message that has one. -/
theorem header_merges {get : M → Option ResponseHeader} {set : M → Option ResponseHeader → M}
    (h : ∀ m, set m (get m) = m) :
    (message 1 responseHeader get set).Merges fun u v => set u (mergeHeaders (get u) (get v)) := by
  have hfield := message_merges 1 responseHeader_merges h
  convert hfield using 4 with u v
  cases get u <;> cases get v <;> simp [mergeHeaders, ResponseHeader.empty_merge]

/-- The merge of two members. -/
def mergeMembers (u v : Member) : Member where
  id := later 0 u.id v.id
  name := later "" u.name v.name
  peerUrls := u.peerUrls ++ v.peerUrls
  clientUrls := u.clientUrls ++ v.clientUrls
  isLearner := later false u.isLearner v.isLearner

theorem empty_mergeMembers (m : Member) : mergeMembers member.empty m = m := by
  simp only [mergeMembers, member, later_default, List.nil_append]

/-- Members merge field by field. -/
theorem member_merges : member.Merges mergeMembers :=
  have hnumbers : member.Numbered := by decide
  merges_of_fields hnumbers <|
    .cons (word_merges 1 fun _ => rfl) <|
    .cons (text_merges 2 fun _ => rfl) <|
    .cons (texts_merges 3 ⟨fun _ => rfl, fun _ _ => rfl, fun _ _ _ => rfl⟩) <|
    .cons (texts_merges 4 ⟨fun _ => rfl, fun _ _ => rfl, fun _ _ _ => rfl⟩) <|
    .cons (flag_merges 5 fun _ => rfl) .nil

/-- Members come after one another. -/
theorem members_merges {get : M → List Member} {set : M → List Member → M}
    (h : Replaces get set) :
    (messages 2 member get set).Merges fun u v => set u (get u ++ get v) :=
  messages_merges 2 member_merges empty_mergeMembers h

/-- The merge of two requests to list members. -/
def MemberListRequest.merge (u v : MemberListRequest) : MemberListRequest where
  linearizable := later false u.linearizable v.linearizable

theorem memberListRequest_merges : memberListRequest.Merges MemberListRequest.merge :=
  have hnumbers : memberListRequest.Numbered := by decide
  merges_of_fields hnumbers <|
    .cons (flag_merges 1 fun _ => rfl) .nil

/-- The merge of two lists of members. -/
def MemberListResponse.merge (u v : MemberListResponse) : MemberListResponse where
  header := mergeHeaders u.header v.header
  members := u.members ++ v.members

theorem memberListResponse_merges : memberListResponse.Merges MemberListResponse.merge :=
  have hnumbers : memberListResponse.Numbered := by decide
  merges_of_fields hnumbers <|
    .cons (header_merges fun _ => rfl) <|
    .cons (members_merges ⟨fun _ => rfl, fun _ _ => rfl, fun _ _ _ => rfl⟩) .nil

/-- The merge of two requests to remove a member. -/
def MemberRemoveRequest.merge (u v : MemberRemoveRequest) : MemberRemoveRequest where
  id := later 0 u.id v.id

theorem memberRemoveRequest_merges : memberRemoveRequest.Merges MemberRemoveRequest.merge :=
  have hnumbers : memberRemoveRequest.Numbered := by decide
  merges_of_fields hnumbers <|
    .cons (word_merges 1 fun _ => rfl) .nil

/-- The merge of two answers to the removal of a member. -/
def MemberRemoveResponse.merge (u v : MemberRemoveResponse) : MemberRemoveResponse where
  header := mergeHeaders u.header v.header
  members := u.members ++ v.members

theorem memberRemoveResponse_merges : memberRemoveResponse.Merges MemberRemoveResponse.merge :=
  have hnumbers : memberRemoveResponse.Numbered := by decide
  merges_of_fields hnumbers <|
    .cons (header_merges fun _ => rfl) <|
    .cons (members_merges ⟨fun _ => rfl, fun _ _ => rfl, fun _ _ _ => rfl⟩) .nil

/-- The merge of two requests for the state of a member. -/
def StatusRequest.merge (u _v : StatusRequest) : StatusRequest :=
  u

theorem statusRequest_merges : statusRequest.Merges StatusRequest.merge :=
  have hnumbers : statusRequest.Numbered := by decide
  merges_of_fields hnumbers .nil

/-- The merge of two states of a member. -/
def StatusResponse.merge (u v : StatusResponse) : StatusResponse where
  header := mergeHeaders u.header v.header
  version := later "" u.version v.version
  dbSize := later 0 u.dbSize v.dbSize
  leader := later 0 u.leader v.leader
  raftIndex := later 0 u.raftIndex v.raftIndex
  raftTerm := later 0 u.raftTerm v.raftTerm
  raftAppliedIndex := later 0 u.raftAppliedIndex v.raftAppliedIndex
  errors := u.errors ++ v.errors
  dbSizeInUse := later 0 u.dbSizeInUse v.dbSizeInUse
  isLearner := later false u.isLearner v.isLearner

theorem StatusResponse.empty_merge (v : StatusResponse) : statusResponse.empty.merge v = v := by
  simp only [merge, statusResponse, later_default, none_mergeHeaders, List.nil_append]

theorem statusResponse_merges : statusResponse.Merges StatusResponse.merge :=
  have hnumbers : statusResponse.Numbered := by decide
  merges_of_fields hnumbers <|
    .cons (header_merges fun _ => rfl) <|
    .cons (text_merges 2 fun _ => rfl) <|
    .cons (signed_merges 3 fun _ => rfl) <|
    .cons (word_merges 4 fun _ => rfl) <|
    .cons (word_merges 5 fun _ => rfl) <|
    .cons (word_merges 6 fun _ => rfl) <|
    .cons (word_merges 7 fun _ => rfl) <|
    .cons (texts_merges 8 ⟨fun _ => rfl, fun _ _ => rfl, fun _ _ _ => rfl⟩) <|
    .cons (signed_merges 9 fun _ => rfl) <|
    .cons (flag_merges 10 fun _ => rfl) .nil

/-- The merge of two requests to hand leadership over. -/
def MoveLeaderRequest.merge (u v : MoveLeaderRequest) : MoveLeaderRequest where
  targetId := later 0 u.targetId v.targetId

theorem moveLeaderRequest_merges : moveLeaderRequest.Merges MoveLeaderRequest.merge :=
  have hnumbers : moveLeaderRequest.Numbered := by decide
  merges_of_fields hnumbers <|
    .cons (word_merges 1 fun _ => rfl) .nil

/-- The merge of two answers to handing leadership over. -/
def MoveLeaderResponse.merge (u v : MoveLeaderResponse) : MoveLeaderResponse where
  header := mergeHeaders u.header v.header

theorem moveLeaderResponse_merges : moveLeaderResponse.Merges MoveLeaderResponse.merge :=
  have hnumbers : moveLeaderResponse.Numbered := by decide
  merges_of_fields hnumbers <|
    .cons (header_merges fun _ => rfl) .nil

end Messages

/-- The types of messages. -/
inductive MessageType where
  | responseHeader
  | member
  | memberListRequest
  | memberListResponse
  | memberRemoveRequest
  | memberRemoveResponse
  | statusRequest
  | statusResponse
  | moveLeaderRequest
  | moveLeaderResponse
  deriving DecidableEq, Repr

namespace MessageType

/-- The values of a type of messages. -/
def Value : MessageType → Type
  | responseHeader => ResponseHeader
  | member => Member
  | memberListRequest => MemberListRequest
  | memberListResponse => MemberListResponse
  | memberRemoveRequest => MemberRemoveRequest
  | memberRemoveResponse => MemberRemoveResponse
  | statusRequest => StatusRequest
  | statusResponse => StatusResponse
  | moveLeaderRequest => MoveLeaderRequest
  | moveLeaderResponse => MoveLeaderResponse

/-- How a type of messages is read and written. -/
def schema : (t : MessageType) → Schema t.Value
  | responseHeader => Wire.responseHeader
  | member => Wire.member
  | memberListRequest => Wire.memberListRequest
  | memberListResponse => Wire.memberListResponse
  | memberRemoveRequest => Wire.memberRemoveRequest
  | memberRemoveResponse => Wire.memberRemoveResponse
  | statusRequest => Wire.statusRequest
  | statusResponse => Wire.statusResponse
  | moveLeaderRequest => Wire.moveLeaderRequest
  | moveLeaderResponse => Wire.moveLeaderResponse

/-- The merge of two messages of a type. -/
def merge : (t : MessageType) → t.Value → t.Value → t.Value
  | responseHeader => ResponseHeader.merge
  | member => mergeMembers
  | memberListRequest => MemberListRequest.merge
  | memberListResponse => MemberListResponse.merge
  | memberRemoveRequest => MemberRemoveRequest.merge
  | memberRemoveResponse => MemberRemoveResponse.merge
  | statusRequest => StatusRequest.merge
  | statusResponse => StatusResponse.merge
  | moveLeaderRequest => MoveLeaderRequest.merge
  | moveLeaderResponse => MoveLeaderResponse.merge

/-- The messages of each type merge as their fields do. -/
theorem schema_merges (t : MessageType) : t.schema.Merges t.merge := by
  cases t with
  | responseHeader => exact responseHeader_merges
  | member => exact member_merges
  | memberListRequest => exact memberListRequest_merges
  | memberListResponse => exact memberListResponse_merges
  | memberRemoveRequest => exact memberRemoveRequest_merges
  | memberRemoveResponse => exact memberRemoveResponse_merges
  | statusRequest => exact statusRequest_merges
  | statusResponse => exact statusResponse_merges
  | moveLeaderRequest => exact moveLeaderRequest_merges
  | moveLeaderResponse => exact moveLeaderResponse_merges

/-- A value that has its defaults only adds nothing. -/
theorem empty_merge (t : MessageType) (v : t.Value) : t.merge t.schema.empty v = v := by
  cases t with
  | responseHeader => exact ResponseHeader.empty_merge v
  | member => exact empty_mergeMembers v
  | memberListRequest => exact congrArg MemberListRequest.mk (later_default false v.linearizable)
  | memberListResponse =>
    exact congrArg (MemberListResponse.mk · v.members) (none_mergeHeaders v.header)
  | memberRemoveRequest => exact congrArg MemberRemoveRequest.mk (later_default 0 v.id)
  | memberRemoveResponse =>
    exact congrArg (MemberRemoveResponse.mk · v.members) (none_mergeHeaders v.header)
  | statusRequest => rfl
  | statusResponse => exact StatusResponse.empty_merge v
  | moveLeaderRequest => exact congrArg MoveLeaderRequest.mk (later_default 0 v.targetId)
  | moveLeaderResponse => exact congrArg MoveLeaderResponse.mk (none_mergeHeaders v.header)

end MessageType

/-- Behind bytes that decode to `u`, the encoding of `v` is decoded to the merge of the two; alone,
it is decoded to `v`. Listed members are read as the `Member`s that the operations work on. -/
theorem decode_append_encode (t : MessageType) (a : Bytes) (u v : t.Value)
    (ha : t.schema.decode a = some u) (hv : (t.schema.encode v).length < 2 ^ 64) :
    t.schema.decode (a ++ t.schema.encode v) = some (t.merge u v) ∧
      t.schema.decode (t.schema.encode v) = some v := by
  have hmerges := t.schema_merges
  refine ⟨(Schema.decodeOnto_append ha _).trans (hmerges _ u v hv), ?_⟩
  rw [Schema.decode, hmerges _ _ v hv, t.empty_merge]

/-- In front stand a header with a term, the version, and a field that is not known. -/
theorem states_merged :
    MessageType.statusResponse.schema.decode
        ([10, 2, 32, 7, 18, 1, 51, 96, 5] ++ MessageType.statusResponse.schema.encode
          { header := some { revision := -1 }, dbSize := -2, errors := ["a"] }) =
      some
        { header := some { revision := -1, raftTerm := 7 }, version := "3", dbSize := -2,
          errors := ["a"] } := by
  have hfront : statusResponse.decode [10, 2, 32, 7, 18, 1, 51, 96, 5] =
      some { header := some { raftTerm := 7 }, version := "3" } := by decide +kernel
  have hsize : (statusResponse.encode
      { header := some { revision := -1 }, dbSize := -2, errors := ["a"] }).length < 2 ^ 64 := by
    decide +kernel
  exact (decode_append_encode .statusResponse _ _ _ hfront hsize).1

end QuorumKeeper.Wire
