/-
  ServiceRegistry.Proofs.Access.Token

  Signed tokens are accepted. The parts of a token are digits of base 64, in which no dot
  occurs, so a token falls apart where it was put together. The signature was made from the
  same text by the same function, of which nothing else is needed. The claims are read twice,
  once as such and once for an audience, which they never name.
-/
import ServiceRegistry.Access.Token
import ServiceRegistry.Proofs.Message.RoundTrip
import ServiceRegistry.Proofs.Text.Base64Url

namespace ServiceRegistry

/-! ## Cutting at a separator -/

namespace Text

theorem cutLast?_append {sep : Char} {middle back : String} (hmiddle : middle.toList = [sep])
    (hback : sep ∉ back.toList) (front : String) :
    cutLast? sep (front ++ middle ++ back) = some (front, back) := by
  have hreverse : (front ++ middle ++ back).toList.reverse
      = back.toList.reverse ++ sep :: front.toList.reverse := by
    simp only [String.toList_append, hmiddle, List.reverse_append, List.reverse_singleton,
      List.singleton_append]
  let p : Char → Bool := fun c => decide (c ≠ sep)
  have hne : ∀ c ∈ back.toList.reverse, p c = true := by
    intro c hc
    refine decide_eq_true ?_
    rintro rfl
    exact hback (List.mem_reverse.1 hc)
  have hstop : ¬ p sep = true := by simp [p]
  unfold cutLast?
  dsimp only
  rw [hreverse, List.dropWhile_append_of_pos hne, List.takeWhile_append_of_pos hne,
    List.dropWhile_cons_of_neg (p := p) hstop, List.takeWhile_cons_of_neg (p := p) hstop,
    List.append_nil]
  simp only [List.reverse_reverse, String.ofList_toList]

end Text

namespace Access

open Json (Decoder Raw Reads writtenString)

/-! ## Parts -/

theorem toList_encoded (bytes : List UInt8) :
    (encoded bytes).toList = Text.Base64Url.encode bytes :=
  String.toList_ofList

theorem dot_not_mem_encoded (bytes : List UInt8) : '.' ∉ (encoded bytes).toList := by
  rw [toList_encoded]
  intro hmem
  obtain ⟨-, -, hne⟩ := Text.Base64Url.visible_of_mem_encode hmem
  exact hne rfl

theorem parts?_sign (secret : String) (c : Claims) :
    parts? (c.sign secret)
      = some (encoded header.bytes, encoded c.toJson.bytes, signature secret c.unsigned) := by
  have hdot : ".".toList = ['.'] := by decide
  have hsigned : Text.cutLast? '.' (c.sign secret)
      = some (c.unsigned, signature secret c.unsigned) :=
    Text.cutLast?_append hdot (dot_not_mem_encoded _) c.unsigned
  have hunsigned : Text.cutLast? '.' c.unsigned
      = some (encoded header.bytes, encoded c.toJson.bytes) :=
    Text.cutLast?_append hdot (dot_not_mem_encoded _) (encoded header.bytes)
  simp only [parts?, hsigned, hunsigned, bind, Option.bind, pure]

theorem decodePart_encoded {α : Type} {d : Decoder α} {bytes : List UInt8} {a : α}
    (h : d.readWhole bytes = .ok a) : decodePart d (encoded bytes) = .ok a := by
  unfold decodePart
  rw [toList_encoded, Text.Base64Url.decode?_encode]
  dsimp only
  rw [h]
  rfl

/-! ## Headers -/

theorem readWhole_header : decodeHeader.readWhole header.bytes = .ok "HS256" := by
  rfl

/-! ## Claims -/

/-- The claims as a tree. -/
def claimsTree (c : Claims) : Raw :=
  .object [(writtenString "sub", .string (writtenString c.subject)),
    (writtenString "roles", .array (c.roles.map fun r => .string (writtenString r.name)) .closed),
    (writtenString "exp", .number (.ofNat c.expiry.toNat) .complete)] .closed

theorem reads_claims (c : Claims) : Reads c.toJson (claimsTree c) := by
  have hroles : List.Forall₂ Reads (c.roles.map (·.toJson))
      (c.roles.map fun r => Raw.string (writtenString r.name)) := by
    rw [List.forall₂_map_left_iff, List.forall₂_map_right_iff]
    exact List.forall₂_same.2 fun r _ => Json.reads_string r.name
  exact Json.reads_object (.cons ⟨rfl, Json.reads_string c.subject⟩
    (.cons ⟨rfl, Json.reads_array hroles⟩ (.cons ⟨rfl, Json.reads_natural c.expiry.toNat⟩ .nil)))

theorem itemsFault?_strings (texts : List String) :
    Json.itemsFault? .closed (texts.map fun t => Raw.string (writtenString t)) = none := by
  induction texts with
  | nil => rfl
  | cons t ts ih =>
    rw [List.map_cons, Json.itemsFault?, ih]
    rfl

/-- Claims that are made here name no audience. -/
theorem conveys_audience (c : Claims) : Conveys decodeAudience c.toJson false := by
  refine ⟨_, reads_claims c, ?_⟩
  let roles : List Raw := c.roles.map fun r => .string (writtenString r.name)
  have hroles : (Raw.array roles .closed).shapeFault? = none := by
    have hstrings := itemsFault?_strings (c.roles.map Role.name)
    rwa [List.map_map] at hstrings
  unfold decodeAudience claimsTree
  dsimp only
  rw [scanMembers_known (Json.text_writtenString _) rfl rfl rfl,
    scanMembers_unknown (Json.text_writtenString _) rfl hroles,
    scanMembers_known (Json.text_writtenString _) rfl rfl rfl]
  rfl

/-! ## Verification -/

/-- A token is accepted under the secret that it was signed under, as long as it has not been
    expired for more than the leeway. -/
theorem verify_sign (secret : String) (c : Claims) (now : UInt64)
    (htime : elapsed c.expiry now ≤ leeway) : verify secret (c.sign secret) now = .ok c := by
  have hheader := decodePart_encoded readWhole_header
  have hclaims := decodePart_encoded (conveys_claims c).readWhole
  have haudience := decodePart_encoded (conveys_audience c).readWhole
  have hexpired : ¬ leeway < elapsed c.expiry now := UInt64.not_lt.2 htime
  unfold verify
  rw [parts?_sign]
  dsimp only
  rw [hheader, hclaims, haudience]
  simp only [bind, Except.bind, Claims.unsigned, ne_eq, not_true, if_false, gt_iff_lt, hexpired]
  rfl

/-- The characters of a token are visible. -/
theorem visible_sign (secret : String) (c : Claims) :
    ∀ ch ∈ (c.sign secret).toList, '!' ≤ ch ∧ ch ≤ '~' := by
  have hpart : ∀ bytes, ∀ ch ∈ (encoded bytes).toList, '!' ≤ ch ∧ ch ≤ '~' := by
    intro bytes ch hch
    rw [toList_encoded] at hch
    obtain ⟨hlow, hhigh, -⟩ := Text.Base64Url.visible_of_mem_encode hch
    exact ⟨hlow, hhigh⟩
  have hdot : ∀ ch ∈ ".".toList, '!' ≤ ch ∧ ch ≤ '~' := by
    intro ch hch
    obtain rfl : ch = '.' := by simpa using hch
    decide
  unfold Claims.sign Claims.unsigned
  simp only [String.toList_append, List.forall_mem_append]
  exact ⟨⟨⟨⟨hpart _, hdot⟩, hpart _⟩, hdot⟩, hpart _⟩

end Access

end ServiceRegistry
