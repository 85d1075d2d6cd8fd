import DecentWallet.Spec.Payload

/-! The typed JSON of a payload: what is encoded is canonical and decodes to the same value, and what is
decoded has its maps in key order. -/

namespace DecentWallet

open Raised

/-! ### Encoding -/

theorem canonical_tagged {kind : String} {v : Json} (h : v.canonical = true) : (tagged kind v).canonical = true := by
  have hkeys : ([str "t", str "v"] : List Str).Pairwise (· < ·) := by decide
  simp [tagged, Json.canonical, Json.canonicalMembers, h, hkeys]

mutual

theorem canonical_encodeValue : ∀ {v : PayloadValue} {room : ℕ} {j : Json}, encodeValue v room = .ok j →
    j.canonical = true
  | _, 0, _, h => by simp [encodeValue] at h
  | .none, _ + 1, _, h => by
    cases Except.ok.inj h
    rfl
  | .bool _, _ + 1, _, h => by
    cases Except.ok.inj h
    exact canonical_tagged rfl
  | .str _, _ + 1, _, h => by
    cases Except.ok.inj h
    exact canonical_tagged rfl
  | .int _, _ + 1, _, h => by
    cases Except.ok.inj h
    exact canonical_tagged rfl
  | .bytes _, _ + 1, _, h => by
    cases Except.ok.inj h
    exact canonical_tagged rfl
  | .list l, _ + 1, _, h => by
    simp only [encodeValue, bind_eq_ok, pure_eq_ok] at h
    obtain ⟨js, hjs, rfl⟩ := h
    exact canonical_tagged (canonical_encodeItems hjs)
  | .map m, _ + 1, _, h => by
    simp only [encodeValue, bind_eq_ok, pure_eq_ok] at h
    obtain ⟨js, hjs, rfl⟩ := h
    exact canonical_tagged (canonical_encodeMembers hjs)
  | .other, _ + 1, _, h => by simp [encodeValue] at h

theorem canonical_encodeItems : ∀ {l : List PayloadValue} {room : ℕ} {js : List Json}, encodeItems l room = .ok js →
    Json.canonicalItems js = true
  | [], _, _, h => by
    cases Except.ok.inj h
    rfl
  | v :: l, _, _, h => by
    simp only [encodeItems, bind_eq_ok, pure_eq_ok] at h
    obtain ⟨j, hj, js, hjs, rfl⟩ := h
    simp [Json.canonicalItems, canonical_encodeValue hj, canonical_encodeItems hjs]

theorem canonical_encodeMembers : ∀ {m : List (Str × PayloadValue)} {room : ℕ} {js : List Json},
    encodeMembers m room = .ok js → Json.canonicalItems js = true
  | [], _, _, h => by
    cases Except.ok.inj h
    rfl
  | (k, v) :: m, _, _, h => by
    simp only [encodeMembers, bind_eq_ok, pure_eq_ok] at h
    obtain ⟨j, hj, js, hjs, rfl⟩ := h
    simp [Json.canonicalItems, Json.canonical, canonical_encodeValue hj, canonical_encodeMembers hjs]

end

/-! ### Decoding -/

theorem b64Decode_encode (b : Bytes) : b64Decode (base64Encode b) none = .ok b := by
  simp only [b64Decode, bind_eq_ok, orRaise_eq_ok, reject_eq_ok, pure_eq_ok]
  exact ⟨b, base64Decode_encode b, (), by simp, rfl⟩

theorem b64Decode_encode_length {b : Bytes} {n : ℕ} (h : b.length = n) :
    b64Decode (base64Encode b) (some n) = .ok b := by
  simp only [b64Decode, bind_eq_ok, orRaise_eq_ok, reject_eq_ok, pure_eq_ok]
  exact ⟨b, base64Decode_encode b, (), by simp [h], rfl⟩

theorem decodeValue_tagged (kind : String) (v : Json) (room : ℕ) :
    decodeValue (tagged kind v) (room + 1) = decodeTagged (str kind) v room := by
  simp [decodeValue, tagged, decodeEntry]

mutual

/-- What was encoded is decoded with the same room. -/
theorem decodeValue_encodeValue : ∀ {v : PayloadValue} {room : ℕ} {j : Json}, v.ordered = true →
    encodeValue v room = .ok j → decodeValue j room = .ok v
  | _, 0, _, _, h => by simp [encodeValue] at h
  | .none, _ + 1, _, _, h => by
    cases Except.ok.inj h
    rfl
  | .bool b, _ + 1, _, _, h => by
    cases Except.ok.inj h
    rw [decodeValue_tagged]
    rfl
  | .str s, _ + 1, _, _, h => by
    cases Except.ok.inj h
    rw [decodeValue_tagged]
    rfl
  | .int n, _ + 1, _, _, h => by
    cases Except.ok.inj h
    rw [decodeValue_tagged]
    rfl
  | .bytes b, _ + 1, _, _, h => by
    cases Except.ok.inj h
    have hne : str "bytes" ≠ str "str" := by decide
    rw [decodeValue_tagged, decodeTagged, if_neg hne, if_pos rfl, b64Decode_encode]
    rfl
  | .list l, _ + 1, _, ho, h => by
    simp only [encodeValue, bind_eq_ok, pure_eq_ok] at h
    obtain ⟨js, hjs, rfl⟩ := h
    rw [decodeValue_tagged, decodeTagged, if_pos rfl,
      decodeItems_encodeItems (by simpa [PayloadValue.ordered] using ho) hjs]
    rfl
  | .map m, _ + 1, _, ho, h => by
    simp only [encodeValue, bind_eq_ok, pure_eq_ok] at h
    obtain ⟨js, hjs, rfl⟩ := h
    simp only [PayloadValue.ordered, Bool.and_eq_true, decide_eq_true_eq] at ho
    have hne : str "map" ≠ str "list" := by decide
    rw [decodeValue_tagged, decodeTagged, if_neg hne, if_pos rfl,
      decodeMembers_encodeMembers ho.1 ho.2 (by simp) hjs]
    rfl
  | .other, _ + 1, _, _, h => by simp [encodeValue] at h

theorem decodeItems_encodeItems : ∀ {l : List PayloadValue} {room : ℕ} {js : List Json},
    PayloadValue.orderedItems l = true → encodeItems l room = .ok js → decodeItems js room = .ok l
  | [], _, _, _, h => by
    cases Except.ok.inj h
    rfl
  | v :: l, _, _, ho, h => by
    simp only [encodeItems, bind_eq_ok, pure_eq_ok] at h
    obtain ⟨j, hj, js, hjs, rfl⟩ := h
    simp only [PayloadValue.orderedItems, Bool.and_eq_true] at ho
    simp [decodeItems, decodeValue_encodeValue ho.1 hj, decodeItems_encodeItems ho.2 hjs, bind_eq_ok]

theorem decodeMembers_encodeMembers : ∀ {m : List (Str × PayloadValue)} {room : ℕ} {js : List Json}
    {previous : Option Str}, Assoc.Sorted m → PayloadValue.orderedMembers m = true →
    (∀ p ∈ previous, ∀ q ∈ m, p < q.1) → encodeMembers m room = .ok js → decodeMembers previous js room = .ok m
  | [], _, _, _, _, _, _, h => by
    cases Except.ok.inj h
    rfl
  | (k, v) :: m, room, _, previous, hs, ho, hp, h => by
    simp only [encodeMembers, bind_eq_ok, pure_eq_ok] at h
    obtain ⟨j, hj, js, hjs, rfl⟩ := h
    simp only [PayloadValue.orderedMembers, Bool.and_eq_true] at ho
    obtain ⟨hk, hm⟩ := List.pairwise_cons.1 hs
    have hrest : decodeMembers (some k) js room = .ok m :=
      decodeMembers_encodeMembers hm ho.2 (fun p hpk q hq => by cases hpk; exact hk q hq) hjs
    simp only [decodeMembers, bind_eq_ok, reject_eq_ok, pure_eq_ok]
    refine ⟨(), ?_, v, decodeValue_encodeValue ho.1 hj, m, hrest, rfl⟩
    intro hex
    obtain ⟨p, hpp, hle⟩ := hex
    exact absurd (hp p hpp (k, v) (by simp)) (not_lt.2 hle)

end

/-! ### What is decoded is in key order -/

mutual

theorem ordered_decodeValue : ∀ {j : Json} {room : ℕ} {v : PayloadValue}, decodeValue j room = .ok v →
    v.ordered = true
  | _, 0, _, h => by simp [decodeValue] at h
  | .obj m, _ + 1, _, h => ordered_decodeEntry h
  | .null, _ + 1, _, h => by simp [decodeValue] at h
  | .bool _, _ + 1, _, h => by simp [decodeValue] at h
  | .int _, _ + 1, _, h => by simp [decodeValue] at h
  | .float _, _ + 1, _, h => by simp [decodeValue] at h
  | .str _, _ + 1, _, h => by simp [decodeValue] at h
  | .arr _, _ + 1, _, h => by simp [decodeValue] at h

theorem ordered_decodeEntry : ∀ {m : List (Str × Json)} {room : ℕ} {v : PayloadValue}, decodeEntry m room = .ok v →
    v.ordered = true
  | [], _, _, h => by simp [decodeEntry] at h
  | [(k, kind)], _, _, h => by
    simp only [decodeEntry] at h
    split at h
    · split_ifs at h
      cases Except.ok.inj h
      rfl
    · cases h
  | [(k, v), (k', v')], _, _, h => by
    simp only [decodeEntry] at h
    split_ifs at h
    · split at h
      · exact ordered_decodeTagged h
      · cases h
    · split at h
      · exact ordered_decodeTagged h
      · cases h
  | _ :: _ :: _ :: _, _, _, h => by simp [decodeEntry] at h

theorem ordered_decodeTagged : ∀ {kind : Str} {j : Json} {room : ℕ} {v : PayloadValue},
    decodeTagged kind j room = .ok v → v.ordered = true
  | _, .bool b, _, _, h => by
    simp only [decodeTagged] at h
    split_ifs at h
    cases Except.ok.inj h
    rfl
  | _, .str s, _, _, h => by
    simp only [decodeTagged] at h
    split_ifs at h
    · cases Except.ok.inj h
      rfl
    · simp only [bind_eq_ok, pure_eq_ok] at h
      obtain ⟨b, -, rfl⟩ := h
      rfl
  | _, .int n, _, _, h => by
    simp only [decodeTagged] at h
    split_ifs at h
    cases Except.ok.inj h
    rfl
  | _, .arr l, _, _, h => by
    simp only [decodeTagged] at h
    split_ifs at h
    · simp only [bind_eq_ok, pure_eq_ok] at h
      obtain ⟨vs, hvs, rfl⟩ := h
      simpa [PayloadValue.ordered] using ordered_decodeItems hvs
    · simp only [bind_eq_ok, pure_eq_ok] at h
      obtain ⟨m, hm, rfl⟩ := h
      obtain ⟨hs, ho, -⟩ := ordered_decodeMembers hm
      simp [PayloadValue.ordered, hs, ho]
  | _, .null, _, _, h => by simp [decodeTagged] at h
  | _, .float _, _, _, h => by simp [decodeTagged] at h
  | _, .obj _, _, _, h => by simp [decodeTagged] at h

theorem ordered_decodeItems : ∀ {js : List Json} {room : ℕ} {l : List PayloadValue}, decodeItems js room = .ok l →
    PayloadValue.orderedItems l = true
  | [], _, _, h => by
    cases Except.ok.inj h
    rfl
  | j :: js, _, _, h => by
    simp only [decodeItems, bind_eq_ok, pure_eq_ok] at h
    obtain ⟨v, hv, l, hl, rfl⟩ := h
    simp [PayloadValue.orderedItems, ordered_decodeValue hv, ordered_decodeItems hl]

theorem ordered_decodeMembers : ∀ {js : List Json} {room : ℕ} {previous : Option Str}
    {m : List (Str × PayloadValue)}, decodeMembers previous js room = .ok m →
      Assoc.Sorted m ∧ PayloadValue.orderedMembers m = true ∧ ∀ p ∈ previous, ∀ q ∈ m, p < q.1
  | [], _, _, _, h => by
    cases Except.ok.inj h
    exact ⟨List.Pairwise.nil, rfl, by simp⟩
  | .arr [.str k, j] :: js, _, previous, _, h => by
    simp only [decodeMembers, bind_eq_ok, reject_eq_ok, pure_eq_ok] at h
    obtain ⟨_, hprev, v, hv, m, hm, rfl⟩ := h
    obtain ⟨hs, ho, hlt⟩ := ordered_decodeMembers hm
    have hk : ∀ q ∈ m, k < q.1 := fun q hq => hlt k rfl q hq
    refine ⟨List.pairwise_cons.2 ⟨hk, hs⟩, ?_, ?_⟩
    · simp [PayloadValue.orderedMembers, ordered_decodeValue hv, ho]
    · intro p hp q hq
      have hpk : p < k := not_le.1 fun hle => hprev ⟨p, hp, hle⟩
      rcases List.mem_cons.1 hq with rfl | hq
      · exact hpk
      · exact hpk.trans (hk q hq)
  | .null :: _, _, _, _, h => by simp [decodeMembers] at h
  | .bool _ :: _, _, _, _, h => by simp [decodeMembers] at h
  | .int _ :: _, _, _, _, h => by simp [decodeMembers] at h
  | .float _ :: _, _, _, _, h => by simp [decodeMembers] at h
  | .str _ :: _, _, _, _, h => by simp [decodeMembers] at h
  | .obj _ :: _, _, _, _, h => by simp [decodeMembers] at h
  | .arr [] :: _, _, _, _, h => by simp [decodeMembers] at h
  | .arr [_] :: _, _, _, _, h => by simp [decodeMembers] at h
  | .arr [.null, _] :: _, _, _, _, h => by simp [decodeMembers] at h
  | .arr [.bool _, _] :: _, _, _, _, h => by simp [decodeMembers] at h
  | .arr [.int _, _] :: _, _, _, _, h => by simp [decodeMembers] at h
  | .arr [.float _, _] :: _, _, _, _, h => by simp [decodeMembers] at h
  | .arr [.arr _, _] :: _, _, _, _, h => by simp [decodeMembers] at h
  | .arr [.obj _, _] :: _, _, _, _, h => by simp [decodeMembers] at h
  | .arr (_ :: _ :: _ :: _) :: _, _, _, _, h => by simp [decodeMembers] at h

end

/-! ### Payloads -/

theorem str_injective : Function.Injective str := by
  intro a b h
  have hchars : a.toList = b.toList := List.map_injective_iff.2 (fun c d hcd => Char.ext (UInt32.toNat_inj.1 hcd)) h
  exact String.toList_inj.1 hchars

@[simp] theorem str_inj {a b : String} : str a = str b ↔ a = b := str_injective.eq_iff

namespace Payload

theorem sorted (p : Payload) : Assoc.Sorted p.entries := (PayloadValue.ordered_map_iff.1 p.ordered).1

theorem ext_get {p q : Payload} (h : ∀ k, Assoc.get p.entries k = Assoc.get q.entries k) : p = q := by
  have hentries : p.entries = q.entries := p.sorted.ext q.sorted h
  cases p
  cases q
  cases hentries
  rfl

theorem entries_set (p : Payload) (k : String) (v : PayloadValue) (hv : v.ordered = true) (j : Str) :
    Assoc.get (p.set k v hv).entries j = if str k = j then some v else Assoc.get p.entries j := by
  rw [set, Assoc.get_insert]
  split_ifs <;> rfl

theorem entries_setBytes (p : Payload) (k : String) (b : Bytes) (j : Str) :
    Assoc.get (p.setBytes k b).entries j = if str k = j then some (.bytes b) else Assoc.get p.entries j :=
  entries_set p k (.bytes b) rfl j

theorem entries_pop (p : Payload) (k : String) (j : Str) :
    Assoc.get (p.pop k).entries j = if str k = j then none else Assoc.get p.entries j := by
  rw [pop, Assoc.get_erase]
  split_ifs <;> rfl

@[simp] theorem get_set (p : Payload) (k j : String) (v : PayloadValue) (hv : v.ordered = true) :
    (p.set k v hv).get j = if k = j then v else p.get j := by
  simp only [get, entries_set, str_inj]
  split_ifs <;> rfl

@[simp] theorem get_setBytes (p : Payload) (k j : String) (b : Bytes) :
    (p.setBytes k b).get j = if k = j then .bytes b else p.get j := get_set _ _ _ _ _

@[simp] theorem get_pop (p : Payload) (k j : String) : (p.pop k).get j = if k = j then .none else p.get j := by
  simp only [get, entries_pop, str_inj]
  split_ifs <;> rfl

@[simp] theorem has_set (p : Payload) (k j : String) (v : PayloadValue) (hv : v.ordered = true) :
    (p.set k v hv).has j = (k = j || p.has j) := by
  simp only [has, entries_set, str_inj]
  split_ifs with h <;> simp [h]

@[simp] theorem has_setBytes (p : Payload) (k j : String) (b : Bytes) :
    (p.setBytes k b).has j = (k = j || p.has j) := has_set _ _ _ _ _

@[simp] theorem has_pop (p : Payload) (k j : String) : (p.pop k).has j = (k ≠ j && p.has j) := by
  simp only [has, entries_pop, str_inj]
  split_ifs with h <;> simp [h]

theorem copy_eq_ok {p q r : Payload} {k : String} :
    p.copy q k = .ok r ↔ ∃ v hv, Assoc.get q.entries (str k) = some v ∧ p.set k v hv = r := by
  unfold copy
  split
  · rename_i h
    simp [h]
  · rename_i v h
    simp only [Except.ok.injEq, h, Option.some.injEq]
    constructor
    · intro hr
      have hv : v.ordered = true := (PayloadValue.ordered_map_iff.1 q.ordered).2 _ (Assoc.mem_of_get h)
      exact ⟨v, hv, rfl, hr⟩
    · intro hex
      obtain ⟨w, hw, rfl, hr⟩ := hex
      exact hr

end Payload

/-! ### The intent -/

namespace RotationDispatchIntent

theorem fieldsOf_toPayload (i : RotationDispatchIntent) : fieldsOf i.toPayload = some i.toRotationBinding := by
  have hkeys : ∀ e : Option Str, i.environment = e → fieldsOf i.toPayload = some i.toRotationBinding := by
    intro e he
    cases e with
    | none =>
      simp [fieldsOf, toPayload, environmentOf, environmentEntry, he, Assoc.get_cons, PayloadValue.asBytes,
        PayloadValue.asInt]
      rw [← he]
    | some e =>
      simp [fieldsOf, toPayload, environmentOf, environmentEntry, he, Assoc.get_cons, PayloadValue.asBytes,
        PayloadValue.asInt, PayloadValue.asStr]
      rw [← he]
  exact hkeys _ rfl

theorem make_eq_ok {b : RotationBinding} {i : RotationDispatchIntent} : make b = .ok i ↔ i.toRotationBinding = b := by
  unfold make
  split_ifs with h
  · constructor
    · intro hi
      cases Except.ok.inj hi
      rfl
    · intro hb
      cases hb
      rfl
  · refine ⟨fun hi => (by cases hi), fun hb => absurd ?_ h⟩
    rw [← hb]
    exact i.ok

@[simp] theorem fromPayload_toPayload (i : RotationDispatchIntent) : fromPayload i.toPayload = .ok i := by
  simp only [fromPayload, bind_eq_ok, orRaise_eq_ok, make_eq_ok]
  exact ⟨_, fieldsOf_toPayload i, rfl⟩

end RotationDispatchIntent

end DecentWallet
