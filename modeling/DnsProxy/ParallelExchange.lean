import DnsProxy.Upstreams

/-!
# Parallel exchanges

`ExchangeParallel` and `ExchangeAll` with a result for each position of the list, so that an
upstream that is listed twice may answer in two ways, and with the results arriving in any
order.

A list of one upstream has a code of its own in both functions. In `ExchangeParallel` it
does not look at the reply, which may be nil without an error.

* `exchangeParallel_eq`, `exchangeAll_eq`: with one result for each upstream these are the
  functions of `Upstreams`.
* `decidesByReplies_iff`: the replies decide, except for a list of one upstream that gives
  nil without an error.
-/

namespace DnsProxy

/-- A position of the list, with what its `Exchange` returns. -/
structure Position where
  upstream : Upstream
  outcome : Outcome

/-- What `exchangeAsync` sends. -/
inductive AsyncResult
  | error (e : Err)
  | result (resp : Option Msg) (u : Upstream)

def exchangeAsync (c : Position) : AsyncResult :=
  match c.outcome with
  | .error e => .error e
  | .ok reply => .result reply c.upstream

def receiveAsyncResult : AsyncResult → Except Err (Msg × Upstream)
  | .error e => .error e
  | .result none _ => .error .noReply
  | .result (some m) u => .ok (m, u)

/-- What `ExchangeParallel` returns. -/
structure Resolved where
  reply : Option Msg
  resolved : Option Upstream
  err : Option Err
deriving DecidableEq

/-- `exchangeSingle` for a position. -/
def exchangeSingleAt (c : Position) : Resolved :=
  match c.outcome with
  | .error e => ⟨none, none, some e⟩
  | .ok resp => ⟨resp, some c.upstream, none⟩

/-- The loop of `ExchangeParallel` over the results as they arrive. -/
def receiveFirst : List AsyncResult → List Err → Resolved
  | [], errs =>
    ⟨none, none, some (if errs.length = 0 then .noneResponded else joinErrs errs)⟩
  | r :: rs, errs =>
    match receiveAsyncResult r with
    | .ok (m, u) => ⟨some m, some u, none⟩
    | .error e => receiveFirst rs (if e = .noReply then errs else errs ++ [e])

/-- `ExchangeParallel`. -/
def exchangeParallelAt (ups arrived : List Position) : Resolved :=
  match ups with
  | [] => ⟨none, none, some .noUpstreams⟩
  | [c] => exchangeSingleAt c
  | _ => receiveFirst (arrived.map exchangeAsync) []

/-- The loop of `ExchangeAll`: the results and the errors. -/
def receiveEach : List AsyncResult → List (Msg × Upstream) × List Err
  | [] => ([], [])
  | r :: rs =>
    let (res, errs) := receiveEach rs
    match receiveAsyncResult r with
    | .ok x => (x :: res, errs)
    | .error e => (res, e :: errs)

/-- The part of `ExchangeAll` for `upsNum` upstreams. -/
def receiveAll (upsNum : Nat) (rs : List AsyncResult) : List (Msg × Upstream) × Option Err :=
  let (res, errs) := receiveEach rs
  (res, if errs.length = upsNum then some (.text "all upstreams failed") else none)

/-- `ExchangeAll`. -/
def exchangeAllAt (ups arrived : List Position) : List (Msg × Upstream) × Option Err :=
  match ups with
  | [] => ([], some .noUpstreams)
  | [c] =>
    match c.outcome with
    | .error e => ([], some e)
    | .ok none => ([], some .noReply)
    | .ok (some reply) => ([(reply, c.upstream)], none)
  | _ => receiveAll ups.length (arrived.map exchangeAsync)

/-! ## What is received -/

/-- The reply of a position, with its upstream. -/
def Position.reply (c : Position) : Option (Msg × Upstream) :=
  match c.outcome with
  | .ok (some m) => some (m, c.upstream)
  | _ => none

/-- Some upstream gave a reply that is not nil. -/
def SomeReplied (ups : List Position) : Prop := ∃ c ∈ ups, ∃ m, c.outcome = .ok (some m)

theorem Position.reply_eq_some {c : Position} {m : Msg} {u : Upstream} :
    c.reply = some (m, u) ↔ c.outcome = .ok (some m) ∧ c.upstream = u := by
  unfold Position.reply
  split
  · next m' h => simp [h]
  · next h => exact ⟨nofun, fun hm => absurd hm.1 (h m)⟩

theorem receive_of_reply {c : Position} {x : Msg × Upstream} (h : c.reply = some x) :
    receiveAsyncResult (exchangeAsync c) = .ok x := by
  obtain ⟨m, u⟩ := x
  obtain ⟨ho, rfl⟩ := Position.reply_eq_some.mp h
  simp [exchangeAsync, ho, receiveAsyncResult]

theorem receive_of_no_reply {c : Position} (h : c.reply = none) :
    ∃ e, receiveAsyncResult (exchangeAsync c) = .error e := by
  rcases ho : c.outcome with e | m
  · exact ⟨e, by simp [exchangeAsync, ho, receiveAsyncResult]⟩
  · cases m with
    | none => exact ⟨.noReply, by simp [exchangeAsync, ho, receiveAsyncResult]⟩
    | some m => simp [Position.reply, ho] at h

theorem someReplied_iff (ups : List Position) :
    SomeReplied ups ↔ ups.filterMap Position.reply ≠ [] := by
  simp only [SomeReplied, ne_eq, List.filterMap_eq_nil_iff, not_forall, exists_prop]
  refine exists_congr fun c => and_congr_right fun _ => ?_
  constructor
  · rintro ⟨m, hm⟩ hnone
    rw [Position.reply_eq_some.mpr ⟨hm, rfl⟩] at hnone
    cases hnone
  · intro hsome
    obtain ⟨⟨m, u⟩, hreply⟩ := Option.ne_none_iff_exists'.mp hsome
    exact ⟨m, (Position.reply_eq_some.mp hreply).1⟩

/-- The loop of `ExchangeParallel` returns the first reply to arrive, and an error without
one. -/
theorem receiveFirst_spec (arrived : List Position) (errs : List Err) :
    (∃ m u, (m, u) ∈ arrived.filterMap Position.reply ∧
        receiveFirst (arrived.map exchangeAsync) errs = ⟨some m, some u, none⟩) ∨
      arrived.filterMap Position.reply = [] ∧
        ∃ e, receiveFirst (arrived.map exchangeAsync) errs = ⟨none, none, some e⟩ := by
  induction arrived generalizing errs with
  | nil => exact .inr ⟨rfl, _, rfl⟩
  | cons c cs ih =>
    rw [List.map_cons, receiveFirst]
    cases h : c.reply with
    | some x =>
      rw [receive_of_reply h]
      exact .inl ⟨x.1, x.2, by simp [h], rfl⟩
    | none =>
      obtain ⟨e, he⟩ := receive_of_no_reply h
      rw [he, List.filterMap_cons, h]
      exact ih _

theorem receiveEach_spec (arrived : List Position) :
    (receiveEach (arrived.map exchangeAsync)).1 = arrived.filterMap Position.reply ∧
      (receiveEach (arrived.map exchangeAsync)).1.length +
        (receiveEach (arrived.map exchangeAsync)).2.length = arrived.length := by
  induction arrived with
  | nil => exact ⟨rfl, rfl⟩
  | cons c cs ih =>
    obtain ⟨hres, hlen⟩ := ih
    simp only [List.map_cons, receiveEach, List.filterMap_cons, List.length_cons]
    cases h : c.reply with
    | some x =>
      rw [receive_of_reply h]
      exact ⟨congrArg (x :: ·) hres, by rw [List.length_cons, Nat.succ_add, hlen]⟩
    | none =>
      obtain ⟨e, he⟩ := receive_of_no_reply h
      rw [he]
      exact ⟨hres, by rw [List.length_cons, Nat.add_succ, hlen]⟩

theorem receiveAll_spec (arrived : List Position) :
    (receiveAll arrived.length (arrived.map exchangeAsync)).1 = arrived.filterMap Position.reply ∧
      (receiveAll arrived.length (arrived.map exchangeAsync)).2 =
        if arrived.filterMap Position.reply = [] then some (.text "all upstreams failed")
        else none := by
  obtain ⟨hres, hlen⟩ := receiveEach_spec arrived
  have hiff : (receiveEach (arrived.map exchangeAsync)).2.length = arrived.length ↔
      arrived.filterMap Position.reply = [] := by
    rw [← hres, ← List.length_eq_zero_iff, ← hlen]
    exact Nat.right_eq_add
  simp only [receiveAll, hres, hiff, and_self]

/-! ## One result for each upstream -/

section Env

variable (env : Exchanges) (req : Msg)

def Exchanges.position (u : Upstream) : Position := ⟨u, env.outcome u req⟩

theorem receiveAsyncResult_position (u : Upstream) :
    receiveAsyncResult (exchangeAsync (env.position req u)) =
      (received env req u).map fun m => (m, u) := by
  unfold received exchangeAsync Exchanges.position
  rcases env.outcome u req with e | m
  · rfl
  · cases m <;> rfl

theorem receiveFirst_eq (us : List Upstream) (errs : List Err) :
    receiveFirst (us.map fun u => exchangeAsync (env.position req u)) errs =
      match firstReply env req us errs with
      | .error e => ⟨none, none, some e⟩
      | .ok (m, u) => ⟨some m, some u, none⟩ := by
  induction us generalizing errs with
  | nil => rfl
  | cons u us ih =>
    simp only [List.map_cons, receiveFirst, firstReply, receiveAsyncResult_position]
    cases received env req u with
    | ok m => rfl
    | error e => exact ih _

theorem exchangeParallel_eq (ups : List Upstream) :
    exchangeParallelAt (ups.map (env.position req)) ((env.arrival ups).map (env.position req)) =
      let x := exchangeParallel env ups req
      ⟨x.resp, x.u, x.err⟩ := by
  match ups with
  | [] => rfl
  | [u] =>
    simp only [List.map_cons, List.map_nil, exchangeParallelAt, exchangeSingleAt,
      exchangeParallel, exchangeSingle, Exchanges.position]
    cases env.outcome u req <;> rfl
  | u :: v :: us =>
    have hfirst := receiveFirst_eq env req (env.arrival (u :: v :: us)) []
    simp only [List.map_cons, exchangeParallelAt, exchangeParallel, List.map_map,
      Function.comp_def, hfirst]
    cases firstReply env req (env.arrival (u :: v :: us)) [] <;> rfl

theorem position_reply (u : Upstream) :
    (env.position req u).reply =
      match received env req u with
      | .ok m => some (m, u)
      | .error _ => none := by
  unfold received Position.reply Exchanges.position
  rcases env.outcome u req with e | m
  · rfl
  · cases m <;> rfl

theorem exchangeAll_many (u v : Upstream) (us : List Upstream) :
    exchangeAll env (u :: v :: us) req =
      let arrived := (env.arrival (u :: v :: us)).map (env.position req)
      let replies := arrived.filterMap Position.reply
      if replies.length = 0 then .error (.text "all upstreams failed") else .ok replies := by
  have hreply : Position.reply ∘ env.position req = fun u =>
      match received env req u with
      | .ok m => some (m, u)
      | .error _ => none := funext fun u => position_reply env req u
  dsimp only
  rw [List.filterMap_map, hreply]
  rfl

theorem exchangeAll_eq (ups : List Upstream) :
    exchangeAllAt (ups.map (env.position req)) ((env.arrival ups).map (env.position req)) =
      match exchangeAll env ups req with
      | .error e => ([], some e)
      | .ok replies => (replies, none) := by
  match ups with
  | [] => rfl
  | [u] =>
    simp only [List.map_cons, List.map_nil, exchangeAllAt, exchangeAll, Exchanges.position]
    rcases env.outcome u req with e | m
    · rfl
    · cases m <;> rfl
  | u :: v :: us =>
    obtain ⟨hres, herr⟩ := receiveAll_spec ((env.arrival (u :: v :: us)).map (env.position req))
    rw [List.length_map, (env.arrival_perm (u :: v :: us)).length_eq] at hres herr
    rw [exchangeAll_many]
    dsimp only
    generalize List.filterMap Position.reply ((env.arrival (u :: v :: us)).map (env.position req)) =
      replies at hres herr ⊢
    simp only [List.map_cons, exchangeAllAt, List.length_cons, List.length_map] at hres herr ⊢
    cases replies with
    | nil => exact Prod.ext hres herr
    | cons x xs => exact Prod.ext hres herr

end Env

/-! ## The replies decide -/

/-- The same reply, upstream and verdict; the texts of the errors may differ. -/
structure Resolved.Agrees (x y : Resolved) : Prop where
  reply : x.reply = y.reply
  resolved : x.resolved = y.resolved
  err : x.err.isSome = y.err.isSome

/-- What is returned is decided by the replies. -/
structure DecidesByReplies (ups arrived : List Position) : Prop where
  parallel_iff : ((exchangeParallelAt ups arrived).reply ≠ none ∧
    (exchangeParallelAt ups arrived).err = none) ↔ SomeReplied ups
  parallel_reply : ∀ m, (exchangeParallelAt ups arrived).reply = some m →
    ∃ c ∈ ups, c.outcome = .ok (some m) ∧
      (exchangeParallelAt ups arrived).resolved = some c.upstream
  all_replies : (exchangeAllAt ups arrived).1.Perm (ups.filterMap Position.reply)
  all_err_iff : (exchangeAllAt ups arrived).2 ≠ none ↔ ¬SomeReplied ups
  /-- A list of one upstream is treated as the others are. -/
  parallel_general : (exchangeParallelAt ups arrived).Agrees
    (receiveFirst (arrived.map exchangeAsync) [])
  all_general : (exchangeAllAt ups arrived).1 =
      (receiveAll ups.length (arrived.map exchangeAsync)).1 ∧
    (exchangeAllAt ups arrived).2.isSome =
      (receiveAll ups.length (arrived.map exchangeAsync)).2.isSome

section General

variable {ups arrived : List Position}

theorem someReplied_of_perm (hperm : arrived.Perm ups) :
    arrived.filterMap Position.reply = [] ↔ ¬SomeReplied ups := by
  rw [someReplied_iff, not_not, ← List.length_eq_zero_iff, ← List.length_eq_zero_iff,
    (hperm.filterMap Position.reply).length_eq]

theorem receiveFirst_decides (hperm : arrived.Perm ups) :
    ((receiveFirst (arrived.map exchangeAsync) []).reply ≠ none ∧
        (receiveFirst (arrived.map exchangeAsync) []).err = none ↔ SomeReplied ups) ∧
      ∀ m, (receiveFirst (arrived.map exchangeAsync) []).reply = some m →
        ∃ c ∈ ups, c.outcome = .ok (some m) ∧
          (receiveFirst (arrived.map exchangeAsync) []).resolved = some c.upstream := by
  rcases receiveFirst_spec arrived [] with ⟨m, u, hmem, heq⟩ | ⟨hnil, e, heq⟩
  · obtain ⟨c, hc, hreply⟩ := List.mem_filterMap.mp hmem
    obtain ⟨ho, rfl⟩ := Position.reply_eq_some.mp hreply
    have hups := hperm.mem_iff.mp hc
    rw [heq]
    refine ⟨by simpa using ⟨c, hups, m, ho⟩, ?_⟩
    rintro m' ⟨⟩
    exact ⟨c, hups, ho, rfl⟩
  · rw [heq]
    exact ⟨by simpa using (someReplied_of_perm hperm).mp hnil, nofun⟩

theorem receiveAll_decides (hperm : arrived.Perm ups) :
    (receiveAll ups.length (arrived.map exchangeAsync)).1.Perm (ups.filterMap Position.reply) ∧
      ((receiveAll ups.length (arrived.map exchangeAsync)).2 ≠ none ↔ ¬SomeReplied ups) := by
  obtain ⟨hres, herr⟩ := receiveAll_spec arrived
  rw [hperm.length_eq] at hres herr
  rw [hres, herr, ← someReplied_of_perm hperm]
  exact ⟨hperm.filterMap _, by split <;> simp_all⟩

theorem decides_of_general (hperm : arrived.Perm ups)
    (hparallel : (exchangeParallelAt ups arrived).Agrees
      (receiveFirst (arrived.map exchangeAsync) []))
    (hall : (exchangeAllAt ups arrived).1 =
        (receiveAll ups.length (arrived.map exchangeAsync)).1 ∧
      (exchangeAllAt ups arrived).2.isSome =
        (receiveAll ups.length (arrived.map exchangeAsync)).2.isSome) :
    DecidesByReplies ups arrived := by
  obtain ⟨hfirst, hreply⟩ := receiveFirst_decides hperm
  obtain ⟨hres, herr⟩ := receiveAll_decides hperm
  obtain ⟨hsame, hup, hverdict⟩ := hparallel
  refine ⟨?_, ?_, hall.1 ▸ hres, ?_, ⟨hsame, hup, hverdict⟩, hall⟩
  · rw [← Option.isSome_eq_false_iff.trans Option.isNone_iff_eq_none, hsame, hverdict,
      Option.isSome_eq_false_iff.trans Option.isNone_iff_eq_none]
    exact hfirst
  · rw [hsame, hup]
    exact hreply
  · rw [← Option.isSome_iff_ne_none, hall.2, Option.isSome_iff_ne_none]
    exact herr

/-- For every list of upstreams, every outcome of each and every order in which the results
arrive: the replies decide, just if the list is not one upstream that gives nil without an
error. -/
theorem decidesByReplies_iff (hne : ups ≠ []) (hperm : arrived.Perm ups) :
    DecidesByReplies ups arrived ↔ ¬∃ u, ups = [⟨u, .ok none⟩] := by
  match ups, hne with
  | [c], _ =>
    obtain rfl := List.perm_singleton.mp hperm
    obtain ⟨u, outcome⟩ := c
    rcases outcome with e | reply
    · refine iff_of_true (decides_of_general hperm ⟨rfl, rfl, rfl⟩ ⟨rfl, rfl⟩) ?_
      rintro ⟨_, ⟨⟩⟩
    · cases reply with
      | none =>
        refine iff_of_false (fun h => ?_) (not_not.mpr ⟨u, rfl⟩)
        exact absurd h.parallel_general.err Bool.false_ne_true
      | some m =>
        refine iff_of_true (decides_of_general hperm ⟨rfl, rfl, rfl⟩ ⟨rfl, rfl⟩) ?_
        rintro ⟨_, ⟨⟩⟩
  | c :: c' :: cs, _ =>
    refine iff_of_true (decides_of_general hperm ⟨rfl, rfl, rfl⟩ ⟨rfl, rfl⟩) ?_
    rintro ⟨_, ⟨⟩⟩

end General

def silentUpstream : Upstream := ⟨0, ascii "192.0.2.53"⟩

theorem decidesByReplies_nil_and_reply :
    DecidesByReplies [⟨silentUpstream, .ok none⟩, ⟨silentUpstream, .ok (some exampleAnswer)⟩]
      [⟨silentUpstream, .ok (some exampleAnswer)⟩, ⟨silentUpstream, .ok none⟩] :=
  (decidesByReplies_iff (List.cons_ne_nil _ _) (.swap ..)).mpr (by rintro ⟨_, ⟨⟩⟩)

/-- One upstream that gives nil without an error: `ExchangeParallel` returns nil without an
error, which for two such upstreams is an error, as it is in `ExchangeAll` for one. -/
theorem single_nil_reply_passed :
    exchangeParallelAt [⟨silentUpstream, .ok none⟩] [⟨silentUpstream, .ok none⟩] =
        ⟨none, some silentUpstream, none⟩ ∧
      (exchangeParallelAt [⟨silentUpstream, .ok none⟩, ⟨silentUpstream, .ok none⟩]
        [⟨silentUpstream, .ok none⟩, ⟨silentUpstream, .ok none⟩]).err = some .noneResponded ∧
      (exchangeAllAt [⟨silentUpstream, .ok none⟩] [⟨silentUpstream, .ok none⟩]).2 =
        some .noReply ∧
      ¬DecidesByReplies [⟨silentUpstream, .ok none⟩] [⟨silentUpstream, .ok none⟩] := by
  refine ⟨rfl, rfl, rfl, fun h => ?_⟩
  exact absurd h.parallel_general.err Bool.false_ne_true

end DnsProxy
