/-
  ServiceRegistry.Proofs.Client.Bookkeeping

  What a keep-alive holds. It announces a fixed list of requests in rounds and withdraws what it
  holds, and the other end answers each call as it likes. Between any two of these duties the
  number held for a request is that of its latest success since the last withdrawal (`latest`),
  so numbers never move from one request to another, however rounds fail in part.

  A round and a withdrawal are described by themselves first: which calls they make, and what
  follows from the answers to them (`run_announce`, `run_withdrawAll`). One duty then keeps the
  books (`Booked.perform`), and so do all (`Booked.after`).
-/
import ServiceRegistry.Proofs.Client.KeepAlive
import ServiceRegistry.Proofs.Client.Wire

namespace ServiceRegistry.Client

open KeepAlive (held ofRequests)
open Json (Decoder)
open Message Net
open Server (Operation)

/-! ## Messages and answers -/

namespace Handle

variable {α : Type} (h : Handle)

/-- The token can be sent, if there is one. -/
def sends : Bool := (h.token.map fun t => Text.utf8 ("Bearer " ++ t)).all isHeaderValue

/-- The calls for some messages, one for each in order, and none with a token that cannot be
    sent. -/
def calls (op : Operation) (messages : List Json) : List Call :=
  if h.sends then messages.map (h.call op) else []

/-- What an answer says. -/
def reads (decode : Decoder α) (answer : Option Response) : Except ClientError α :=
  if h.sends then
    match answer with
    | some r => readResponse decode r
    | none => .error .unreachable
  else .error .unreachable

/-- What the answers to the next calls say. -/
def replies (decode : Decoder α) (w : Wire) (n : Nat) : List (Except ClientError α) :=
  (List.range n).map fun i => h.reads decode (w.answers (w.made.length + i))

theorem calls_nil (op : Operation) : h.calls op [] = [] := by
  unfold calls
  split <;> rfl

theorem calls_cons (op : Operation) (message : Json) (messages : List Json) :
    h.calls op [message] ++ h.calls op messages = h.calls op (message :: messages) := by
  unfold calls
  split <;> rfl

/-- The answers after the first one are those that come when its call has been made. -/
theorem replies_succ (decode : Decoder α) (op : Operation) (message : Json) (w : Wire) (n : Nat) :
    h.replies decode w (n + 1) =
      h.reads decode w.answer :: h.replies decode (w.calling (h.calls op [message])) n := by
  unfold replies
  rw [List.range_succ_eq_map, List.map_cons, List.map_map]
  refine congrArg (_ :: ·) (List.map_congr_left fun i _ => ?_)
  unfold reads calls
  -- Without a call the answers are not counted on, but then no answer is read either.
  cases h.sends with
  | false => rfl
  | true =>
    have hlength : w.made.length + (i + 1) = (w.calling [h.call op message]).made.length + i := by
      rw [Wire.calling_made, List.length_append, List.length_singleton]
      omega
    simp only [if_true, Function.comp_apply, Nat.succ_eq_add_one, hlength, List.map_cons,
      List.map_nil, Wire.calling_answers]

theorem run_send (decode : Decoder α) (op : Operation) (message : Json) (w : Wire) :
    (h.send Wire.network op message decode).run w =
      (h.reads decode w.answer, w.calling (h.calls op [message])) := by
  have hsends : (h.call op message).request.authorization.all isHeaderValue = h.sends := rfl
  unfold send reads calls
  dsimp only
  rw [hsends]
  cases h.sends with
  | false => simp only [Bool.false_eq_true, if_false, Activity.pure_eq, Activity.run_done,
      Wire.calling_nil]
  | true =>
    simp only [if_true, Activity.run_bind, Wire.run_network, List.map_cons, List.map_nil]
    cases w.answer <;> rfl

end Handle

/-- The number in an answer to a registration. -/
def numberIn : Except ClientError RegisterResponse → Option InstanceId
  | .ok answer => some answer.instanceId
  | .error _ => none

section

variable (h : Handle)

/-! ## One round, one withdrawal -/

/-- Every request is sent, whatever was answered to those before. -/
theorem run_announce (regs : List Registration) (w : Wire) :
    (KeepAlive.announce h Wire.network regs).run w =
      ((h.replies RegisterResponse.decode w regs.length).map numberIn,
        w.calling (h.calls .register (regs.map (·.request.toJson)))) := by
  induction regs generalizing w with
  | nil =>
    rw [List.map_nil, h.calls_nil, Wire.calling_nil]
    rfl
  | cons r regs ih =>
    rw [KeepAlive.announce, Activity.run_bind, Handle.register, h.run_send, Activity.run_bind, ih,
      List.length_cons, h.replies_succ _ .register r.request.toJson, Wire.calling_calling,
      h.calls_cons]
    cases h.reads RegisterResponse.decode w.answer <;> rfl

/-- Every number is withdrawn, whatever was answered to those before. -/
theorem run_withdrawAll (ids : List InstanceId) (w : Wire) :
    (KeepAlive.withdrawAll h Wire.network ids).run w =
      ((h.replies Ack.decode w ids.length).foldr firstError (.ok ()),
        w.calling (h.calls .deregister (ids.map fun id => DeregisterRequest.toJson ⟨id⟩))) := by
  induction ids generalizing w with
  | nil =>
    rw [List.map_nil, h.calls_nil, Wire.calling_nil]
    rfl
  | cons id ids ih =>
    rw [KeepAlive.withdrawAll, Activity.run_bind, Handle.deregister, h.run_send, Activity.run_bind,
      ih, List.length_cons, h.replies_succ _ .deregister (DeregisterRequest.toJson ⟨id⟩),
      Wire.calling_calling, h.calls_cons, List.foldr_cons]
    cases h.reads Ack.decode w.answer <;> rfl

theorem run_registerAll (regs : List Registration) (w : Wire) :
    let ids := (h.replies RegisterResponse.decode w regs.length).map numberIn
    (KeepAlive.registerAll h Wire.network regs).run w =
      ((ids.countP (·.isSome), regs.zipWith (fun r id => { r with held := id.or r.held }) ids),
        w.calling (h.calls .register (regs.map (·.request.toJson)))) := by
  intro ids
  rw [KeepAlive.registerAll, Activity.run_bind, run_announce]
  rfl

theorem run_shutdown (regs : List Registration) (w : Wire) :
    (KeepAlive.shutdown h Wire.network regs).run w =
      (((h.replies Ack.decode w (held regs).length).foldr firstError (.ok ()),
          regs.map fun r => { r with held := none }),
        w.calling (h.calls .deregister
          ((held regs).map fun id => DeregisterRequest.toJson ⟨id⟩))) := by
  rw [KeepAlive.shutdown, Activity.run_bind, run_withdrawAll]
  rfl

end

/-! ## What the answers to withdrawals come to -/

/-- An instance has been withdrawn, or was gone already. -/
def Excused (answer : Except ClientError Ack) : Prop :=
  (∃ ack, answer = .ok ack) ∨ ∃ message, answer = .error (.refused 404 message)

theorem isNotFound_iff {e : ClientError} :
    e.isNotFound = true ↔ ∃ message, e = .refused 404 message := by
  cases e with
  | unreachable => exact ⟨nofun, nofun⟩
  | refused status message =>
    constructor
    · intro h
      exact ⟨message, congrArg (ClientError.refused · message) (beq_iff_eq.1 h)⟩
    · rintro ⟨_, ⟨⟩⟩
      rfl

section

variable {answer : Except ClientError Ack} {answers : List (Except ClientError Ack)}

theorem firstError_of_excused (h : Excused answer) (rest : Except ClientError Unit) :
    firstError answer rest = rest := by
  obtain ⟨ack, rfl⟩ | ⟨message, rfl⟩ := h
  · rfl
  · rfl

theorem firstError_of_not_excused (h : ¬ Excused answer) (rest : Except ClientError Unit) :
    ∃ e, answer = .error e ∧ firstError answer rest = .error e := by
  cases answer with
  | ok ack => exact absurd (.inl ⟨ack, rfl⟩) h
  | error e =>
    have hfound : ¬ e.isNotFound = true := by
      intro hfound
      obtain ⟨message, rfl⟩ := isNotFound_iff.1 hfound
      exact h (.inr ⟨message, rfl⟩)
    exact ⟨e, rfl, if_neg hfound⟩

theorem foldr_firstError_eq_ok :
    answers.foldr firstError (.ok ()) = .ok () ↔ ∀ answer ∈ answers, Excused answer := by
  induction answers with
  | nil => exact ⟨fun _ => List.forall_mem_nil _, fun _ => rfl⟩
  | cons answer rest ih =>
    rw [List.foldr_cons, List.forall_mem_cons]
    by_cases h : Excused answer
    · rw [firstError_of_excused h, ih]
      exact ⟨fun hrest => ⟨h, hrest⟩, And.right⟩
    · obtain ⟨e, -, herror⟩ := firstError_of_not_excused h (rest.foldr firstError (.ok ()))
      rw [herror]
      exact ⟨nofun, fun hall => absurd hall.1 h⟩

/-- The first answer that is not excused is what they come to. -/
theorem foldr_firstError_eq_error {e : ClientError} :
    answers.foldr firstError (.ok ()) = .error e ↔
      ∃ before after, answers = before ++ .error e :: after ∧ ¬ Excused (.error e) ∧
        ∀ answer ∈ before, Excused answer := by
  induction answers with
  | nil =>
    constructor
    · exact nofun
    · rintro ⟨before, after, hnil, -⟩
      exact absurd hnil.symm (List.append_ne_nil_of_right_ne_nil _ (List.cons_ne_nil _ _))
  | cons answer rest ih =>
    rw [List.foldr_cons]
    by_cases h : Excused answer
    case pos =>
      rw [firstError_of_excused h, ih]
      constructor
      · rintro ⟨before, after, rfl, he, hbefore⟩
        exact ⟨answer :: before, after, rfl, he, List.forall_mem_cons.2 ⟨h, hbefore⟩⟩
      · rintro ⟨before, after, heq, he, hbefore⟩
        cases before with
        | nil =>
          obtain ⟨rfl, -⟩ := List.cons.inj heq
          exact absurd h he
        | cons a before =>
          obtain ⟨-, rfl⟩ := List.cons.inj heq
          exact ⟨before, after, rfl, he, (List.forall_mem_cons.1 hbefore).2⟩
    case neg =>
      obtain ⟨e', rfl, herror⟩ :=
        firstError_of_not_excused h (rest.foldr firstError (.ok ()))
      rw [herror]
      constructor
      · rintro ⟨⟩
        exact ⟨[], rest, rfl, h, List.forall_mem_nil _⟩
      · rintro ⟨before, after, heq, he, hbefore⟩
        cases before with
        | nil => exact congrArg Except.error (Except.error.inj (List.cons.inj heq).1)
        | cons a before =>
          obtain ⟨rfl, -⟩ := List.cons.inj heq
          exact absurd (hbefore _ List.mem_cons_self) h

end

/-! ## Duties -/

/-- What a keep-alive is asked to do. -/
inductive Duty
  | announce
  | withdraw
  deriving DecidableEq, Repr

/-- A keep-alive between two duties. -/
structure Keeper where
  regs : List Registration
  wire : Wire
  /-- The duties done, the latest first, each with the number of calls made before it. -/
  past : List (Duty × Nat) := []

/-- The number in the latest success of the request at a place, of the rounds since the last
    withdrawal. The numbers in the answers are given by how many calls were made before. -/
def latest (number : Nat → Option InstanceId) (past : List (Duty × Nat)) (place : Nat) :
    Option InstanceId :=
  (past.takeWhile (·.1 = .announce)).findSome? fun d => number (d.2 + place)

section

variable (number : Nat → Option InstanceId) (past : List (Duty × Nat)) (n : Nat)

theorem latest_nil : latest number [] = fun _ => none := rfl

theorem latest_withdraw : latest number ((.withdraw, n) :: past) = fun _ => none := rfl

/-- A round that fails leaves an earlier number in place. -/
theorem latest_announce :
    latest number ((.announce, n) :: past) = fun place =>
      (number (n + place)).or (latest number past place) := by
  funext place
  unfold latest
  rw [List.takeWhile_cons_of_pos (by rfl), List.findSome?_cons]
  cases number (n + place) <;> rfl

end

namespace Keeper

variable (h : Handle)

/-- Does a duty. -/
def perform (k : Keeper) (duty : Duty) : Keeper :=
  let past := (duty, k.wire.made.length) :: k.past
  match duty with
  | .announce =>
    let done := (KeepAlive.registerAll h Wire.network k.regs).run k.wire
    ⟨done.1.2, done.2, past⟩
  | .withdraw =>
    let done := (KeepAlive.shutdown h Wire.network k.regs).run k.wire
    ⟨done.1.2, done.2, past⟩

/-- Does some duties, one after the other. -/
def after (k : Keeper) (duties : List Duty) : Keeper := duties.foldl (perform h) k

/-- The books are right: the requests are the same as ever, and what is held for each of them is
    the number of its latest success. -/
structure Booked (rs : List RegisterRequest) (answers : Nat → Option Response) (k : Keeper) :
    Prop where
  requests_eq : k.regs.map (·.request) = rs
  answers_eq : k.wire.answers = answers
  held_eq : k.regs.map (·.held) = (List.range rs.length).map
    (latest (fun n => numberIn (h.reads RegisterResponse.decode (answers n))) k.past)

section

variable {h} {rs : List RegisterRequest} {answers : Nat → Option Response} {k : Keeper}

theorem booked_ofRequests (rs : List RegisterRequest) (w : Wire) :
    Booked h rs w.answers ⟨ofRequests rs, w, []⟩ where
  requests_eq := by simp only [ofRequests, List.map_map, Function.comp_def, List.map_id']
  answers_eq := rfl
  held_eq := by
    rw [latest_nil]
    simp only [ofRequests, List.map_map, Function.comp_def, List.map_const', List.length_range]

theorem Booked.length_regs (hk : Booked h rs answers k) : k.regs.length = rs.length := by
  rw [← hk.requests_eq, List.length_map]

/-- The numbers that a round is answered with, each at the place of its request. -/
theorem Booked.numbers_eq (hk : Booked h rs answers k) :
    (h.replies RegisterResponse.decode k.wire k.regs.length).map numberIn =
      (List.range rs.length).map fun place =>
        numberIn (h.reads RegisterResponse.decode (answers (k.wire.made.length + place))) := by
  rw [hk.length_regs, ← hk.answers_eq]
  exact List.map_map

theorem Booked.announce (hk : Booked h rs answers k) :
    Booked h rs answers (k.perform h .announce) := by
  let ids := (h.replies RegisterResponse.decode k.wire k.regs.length).map numberIn
  have hdone : k.perform h .announce =
      ⟨k.regs.zipWith (fun r id => { r with held := id.or r.held }) ids,
        k.wire.calling (h.calls .register (k.regs.map (·.request.toJson))),
        (.announce, k.wire.made.length) :: k.past⟩ := by
    show Keeper.mk _ _ _ = _
    rw [run_registerAll]
  have hids : ids.length = k.regs.length := by
    rw [List.length_map, Handle.replies, List.length_map, List.length_range]
  rw [hdone]
  refine ⟨?_, hk.answers_eq, ?_⟩
  -- There is a number for each request, so that none is lost where the two lists are joined.
  · calc (k.regs.zipWith (fun r id => { r with held := id.or r.held }) ids).map (·.request)
      _ = (k.regs.zip ids).map fun p => p.1.request := by
        rw [List.map_zipWith, List.map_zip_eq_zipWith]
        rfl
      _ = ((k.regs.zip ids).map Prod.fst).map (·.request) := List.map_map.symm
      _ = rs := by rw [List.map_fst_zip (Nat.le_of_eq hids.symm), hk.requests_eq]
  · calc (k.regs.zipWith (fun r id => { r with held := id.or r.held }) ids).map (·.held)
      _ = (k.regs.map (·.held)).zipWith (fun earlier id => id.or earlier) ids := by
        rw [List.map_zipWith, List.zipWith_map_left]
      _ = _ := by
        -- Both are given by the places of the requests.
        have hnumbers : ids = _ := hk.numbers_eq
        rw [hk.held_eq, hnumbers, List.zipWith_map, List.zipWith_self, latest_announce]

theorem Booked.withdraw (hk : Booked h rs answers k) :
    Booked h rs answers (k.perform h .withdraw) := by
  have hdone : k.perform h .withdraw =
      ⟨k.regs.map fun r => { r with held := none },
        k.wire.calling (h.calls .deregister
          ((held k.regs).map fun id => DeregisterRequest.toJson ⟨id⟩)),
        (.withdraw, k.wire.made.length) :: k.past⟩ := by
    show Keeper.mk _ _ _ = _
    rw [run_shutdown]
  rw [hdone]
  refine ⟨?_, hk.answers_eq, ?_⟩
  · rw [← hk.requests_eq]
    exact List.map_map
  · rw [latest_withdraw]
    simp only [List.map_map, Function.comp_def, List.map_const', List.length_range, hk.length_regs]

theorem Booked.perform (hk : Booked h rs answers k) (duty : Duty) :
    Booked h rs answers (k.perform h duty) := by
  cases duty with
  | announce => exact hk.announce
  | withdraw => exact hk.withdraw

theorem Booked.after (hk : Booked h rs answers k) (duties : List Duty) :
    Booked h rs answers (k.after h duties) := by
  induction duties generalizing k with
  | nil => exact hk
  | cons duty duties ih => exact ih (hk.perform duty)

theorem Booked.held_regs (hk : Booked h rs answers k) :
    held k.regs = (List.range rs.length).filterMap
      (latest (fun n => numberIn (h.reads RegisterResponse.decode (answers n))) k.past) := by
  calc held k.regs
    _ = (k.regs.map (·.held)).filterMap id := by rw [List.filterMap_map]; rfl
    _ = _ := by rw [hk.held_eq, List.filterMap_map]; rfl

end

theorem map_past_after (k : Keeper) (duties : List Duty) :
    (k.after h duties).past.map (·.1) = duties.reverse ++ k.past.map (·.1) := by
  induction duties generalizing k with
  | nil => rfl
  | cons duty duties ih =>
    have hpast : (k.perform h duty).past.map (·.1) = duty :: k.past.map (·.1) := by
      cases duty <;> rfl
    have hafter : k.after h (duty :: duties) = (k.perform h duty).after h duties := rfl
    rw [hafter, ih, hpast, List.reverse_cons, List.append_assoc, List.singleton_append]

end Keeper

theorem countP_numberIn (answers : List (Except ClientError RegisterResponse)) :
    (answers.map numberIn).countP (·.isSome) = answers.countP (·.isOk) := by
  rw [List.countP_map]
  refine List.countP_congr fun answer _ => ?_
  cases answer <;> exact Iff.rfl

theorem held_withdrawn (regs : List Registration) :
    held (regs.map fun r => { r with held := none }) = [] := by
  rw [held, List.filterMap_map]
  exact List.filterMap_eq_nil_iff.2 fun _ _ => rfl

/-- A keep-alive that has done any duties, one after the other, whatever was answered to its calls.
    It holds, in the order of the requests, the number of each one's latest success since the last
    withdrawal. A round now sends each request once, in order, and gives the number of successes.
    A withdrawal now sends one request for each number held, in order; it ends well exactly if each
    was removed or had gone already, and otherwise with the first error that says something else.
    Nothing is held after it, and another one right after sends nothing and ends well. -/
theorem keeps_books (h : Handle) (rs : List RegisterRequest) (w : Wire) (duties : List Duty) :
    let k := Keeper.after h ⟨ofRequests rs, w, []⟩ duties
    let round := (KeepAlive.registerAll h Wire.network k.regs).run k.wire
    let last := (KeepAlive.shutdown h Wire.network k.regs).run k.wire
    let registered := h.replies RegisterResponse.decode k.wire rs.length
    let removed := h.replies Ack.decode k.wire (held k.regs).length
    (k.past.map (·.1) = duties.reverse ∧ held k.regs = (List.range rs.length).filterMap
      (latest (fun n => numberIn (h.reads RegisterResponse.decode (w.answers n))) k.past)) ∧
    (round.2.made = k.wire.made ++ h.calls .register (rs.map (·.toJson)) ∧
      round.1.1 = registered.countP (·.isOk)) ∧
    (last.2.made = k.wire.made ++
        h.calls .deregister ((held k.regs).map fun id => DeregisterRequest.toJson ⟨id⟩) ∧
      (last.1.1 = .ok () ↔ ∀ answer ∈ removed, Excused answer) ∧
      ∀ e, last.1.1 = .error e ↔ ∃ before after, removed = before ++ .error e :: after ∧
        ¬ Excused (.error e) ∧ ∀ answer ∈ before, Excused answer) ∧
    held last.1.2 = [] ∧
      (KeepAlive.shutdown h Wire.network last.1.2).run last.2 = ((.ok (), last.1.2), last.2) := by
  intro k round last registered removed
  have hk : Keeper.Booked h rs w.answers k := (Keeper.booked_ofRequests rs w).after duties
  have hrequests : k.regs.map (·.request.toJson) = rs.map (·.toJson) := by
    rw [← hk.requests_eq, List.map_map]
    rfl
  have hround : round = _ := run_registerAll h k.regs k.wire
  have hlast : last = _ := run_shutdown h k.regs k.wire
  have hheld : held last.1.2 = [] := by
    rw [hlast]
    exact held_withdrawn k.regs
  refine ⟨⟨?_, hk.held_regs⟩, ⟨?_, ?_⟩, ⟨?_, ?_, fun e => ?_⟩, hheld, ?_⟩
  · exact (Keeper.map_past_after h _ duties).trans (List.append_nil _)
  · rw [hround, Wire.calling_made, hrequests]
  · rw [hround, countP_numberIn, hk.length_regs]
  · rw [hlast, Wire.calling_made]
  · rw [hlast, foldr_firstError_eq_ok]
  · rw [hlast, foldr_firstError_eq_error]
  · rw [run_shutdown, hheld, List.map_nil, h.calls_nil, Wire.calling_nil, hlast, List.map_map]
    rfl

/-- Of two requests one fails in the first round and the other in the second. -/
example :
    let h : Handle := { origin := "http://registry" }
    let request (name : String) : RegisterRequest := ⟨.named name, [{ port := 9000 }]⟩
    let numbered (id : InstanceId) := some (Response.json 200 (RegisterResponse.toJson ⟨id, []⟩))
    let w : Wire := { answers := fun n =>
      [numbered 7, none, some (.json 500 (.object [])), numbered 9][n]?.join }
    held (Keeper.after h ⟨ofRequests [request "kv", request "log"], w, []⟩
      [.announce, .announce]).regs = [7, 9] := by
  decide +kernel

end ServiceRegistry.Client
