import DnsProxy.ParallelExchange
import Mathlib.Data.List.FinRange

/-!
# Load balancing

`exchangeUpstreams` in the load-balancing mode: the upstreams are tried in the order in which
a sampler draws them by the weights of their round-trip times, until one answers, and each
attempt is entered in the statistics of its upstream's address.

The numbers of the statistics are `float64`s, for which only their type is used here.

* `exchangeLoadBalance_eq`: without the statistics this is `exchangeUpstreams`.
* `takeNext_spec`: what the loop over the drawn upstreams does.
* `loadBalance_failover`: what becomes of a request, for every order of the draws.
-/

namespace DnsProxy

/-! ## Statistics -/

structure UpstreamRTTStats where
  rttSum : Float := 0
  reqNum : Float := 0

/-- A duration in nanoseconds is entered in microseconds. -/
def UpstreamRTTStats.update (stats : UpstreamRTTStats) (rtt : Int) : UpstreamRTTStats :=
  { rttSum := stats.rttSum + Float.ofInt (rtt.tdiv 1000)
    reqNum := stats.reqNum + 1 }

/-- The statistics by address. -/
abbrev RTTTable := Bytes → Option UpstreamRTTStats

def updateRTT (table : RTTTable) (address : Bytes) (rtt : Int) : RTTTable :=
  Function.update table address (some (((table address).getD {}).update rtt))

def calcWeights (table : RTTTable) (ups : List Upstream) : List Float :=
  ups.map fun u =>
    let stat := (table u.address).getD {}
    if stat.rttSum == 0 || stat.reqNum == 0 then 1 else 1 / (stat.rttSum / stat.reqNum)

/-! ## The exchange -/

/-- A position of the list, with the duration that is measured for its exchange. -/
structure Trial extends Position where
  elapsed : Int

/-- `defaultTimeout`, in nanoseconds. -/
def defaultTimeout : Int := 10 * 10 ^ 9

/-- What is returned, with the positions tried, the calls of `updateRTT` and the statistics
they leave. -/
structure LoadBalanced (n : Nat) where
  resp : Option Msg
  u : Option Upstream
  err : Option Err
  tried : List (Fin n) := []
  updates : List (Bytes × Int) := []
  table : RTTTable

section Exchange

variable (ups : List Trial)

/-- The loop over the positions that the sampler draws. -/
def takeNext : List (Fin ups.length) → RTTTable → LoadBalanced ups.length
  | [], table =>
    { resp := none, u := none
      err := some (.text "all upstreams failed to exchange request"), table := table }
  | i :: is, table =>
    let u := ups.get i
    match u.outcome with
    | .ok resp =>
      { resp := resp, u := some u.upstream, err := none, tried := [i]
        updates := [(u.upstream.address, u.elapsed)]
        table := updateRTT table u.upstream.address u.elapsed }
    | .error _ =>
      let rest := takeNext is (updateRTT table u.upstream.address defaultTimeout)
      { rest with
        tried := i :: rest.tried
        updates := (u.upstream.address, defaultTimeout) :: rest.updates }

/-- The only upstream of a list. Its statistics are not updated. -/
def exchangeOnly (table : RTTTable) (i : Fin ups.length) : LoadBalanced ups.length :=
  let u := ups.get i
  match u.outcome with
  | .error e => { resp := none, u := none, err := some e, tried := [i], table := table }
  | .ok resp =>
    { resp := resp, u := some u.upstream, err := none, tried := [i], table := table }

/-- `exchangeUpstreams` in the load-balancing mode. The sampler gives the positions in the
order in which it draws them by the weights. -/
def exchangeLoadBalance (sampler : List Float → List (Fin ups.length)) (table : RTTTable) :
    LoadBalanced ups.length :=
  if h : ups.length = 1 then exchangeOnly ups table ⟨0, h ▸ Nat.one_pos⟩
  else takeNext ups (sampler (calcWeights table (ups.map (·.upstream)))) table

end Exchange

/-! ## What the loop does -/

section Loop

variable {ups : List Trial}

/-- The exchange with the upstream at the position fails. -/
def Fails (ups : List Trial) (i : Fin ups.length) : Prop := ∃ e, (ups.get i).outcome = .error e

/-- What is entered for an attempt: the measured duration, or the timeout if it failed. -/
def charge (ups : List Trial) (i : Fin ups.length) : Bytes × Int :=
  match (ups.get i).outcome with
  | .ok _ => ((ups.get i).upstream.address, (ups.get i).elapsed)
  | .error _ => ((ups.get i).upstream.address, defaultTimeout)

theorem charge_ok {i : Fin ups.length} {resp : Option Msg} (h : (ups.get i).outcome = .ok resp) :
    charge ups i = ((ups.get i).upstream.address, (ups.get i).elapsed) := by
  unfold charge
  rw [h]

theorem charge_error {i : Fin ups.length} {e : Err} (h : (ups.get i).outcome = .error e) :
    charge ups i = ((ups.get i).upstream.address, defaultTimeout) := by
  unfold charge
  rw [h]

theorem charge_address (i : Fin ups.length) : (charge ups i).1 = (ups.get i).upstream.address := by
  unfold charge
  split <;> rfl

/-- The updates, one after the other. -/
def applyUpdates (table : RTTTable) (updates : List (Bytes × Int)) : RTTTable :=
  updates.foldl (fun table x => updateRTT table x.1 x.2) table

theorem applyUpdates_frame {updates : List (Bytes × Int)} {a : Bytes}
    (h : ∀ x ∈ updates, x.1 ≠ a) (table : RTTTable) : applyUpdates table updates a = table a := by
  induction updates generalizing table with
  | nil => rfl
  | cons x xs ih =>
    obtain ⟨hx, hxs⟩ := List.forall_mem_cons.mp h
    show applyUpdates (updateRTT table x.1 x.2) xs a = _
    rw [ih hxs, updateRTT, Function.update_of_ne (Ne.symm hx)]

/-- The durations that are entered under the address. -/
def durations (a : Bytes) (updates : List (Bytes × Int)) : List Int :=
  (updates.filter (·.1 = a)).map Prod.snd

/-- The statistics with one request more for each of the durations. -/
def UpstreamRTTStats.after (stats : UpstreamRTTStats) (rtts : List Int) : UpstreamRTTStats where
  rttSum := rtts.foldl (fun sum rtt => sum + Float.ofInt (rtt.tdiv 1000)) stats.rttSum
  reqNum := rtts.foldl (fun num _ => num + 1) stats.reqNum

theorem applyUpdates_stats (a : Bytes) (table : RTTTable) (updates : List (Bytes × Int)) :
    (applyUpdates table updates a).getD {} = ((table a).getD {}).after (durations a updates) := by
  induction updates generalizing table with
  | nil => rfl
  | cons x xs ih =>
    show (applyUpdates (updateRTT table x.1 x.2) xs a).getD {} = _
    rw [ih, updateRTT]
    by_cases hx : x.1 = a
    · subst hx
      simp [durations, UpstreamRTTStats.after, UpstreamRTTStats.update]
    · simp [durations, Function.update_of_ne (Ne.symm hx), hx]

/-- The exchange succeeds at a position after those that failed, and its reply is returned. -/
structure SucceedsAt (x : LoadBalanced ups.length) (failed : List (Fin ups.length))
    (i : Fin ups.length) : Prop where
  tried : x.tried = failed ++ [i]
  fails : ∀ j ∈ failed, Fails ups j
  reply : (ups.get i).outcome = .ok x.resp
  upstream : x.u = some (ups.get i).upstream
  err : x.err = none

/-- The exchange fails at every drawn position. -/
structure ExhaustsAll (x : LoadBalanced ups.length) (order : List (Fin ups.length)) : Prop where
  tried : x.tried = order
  fails : ∀ j ∈ order, Fails ups j
  err : x.err ≠ none

/-- How the draws end: at the first success, or when they are used up. -/
inductive Ends (x : LoadBalanced ups.length) (order : List (Fin ups.length)) : Prop
  | found (failed : List (Fin ups.length)) (i : Fin ups.length) (rest : List (Fin ups.length)) :
      order = failed ++ i :: rest → SucceedsAt x failed i → Ends x order
  | exhausted : ExhaustsAll x order → Ends x order

/-- The loop stops at the first success in the order of the draws, or has tried them all. -/
theorem takeNext_spec (order : List (Fin ups.length)) (table : RTTTable) :
    Ends (takeNext ups order table) order := by
  induction order generalizing table with
  | nil => exact .exhausted ⟨rfl, nofun, nofun⟩
  | cons i is ih =>
    unfold takeNext
    dsimp only
    cases ho : (ups.get i).outcome with
    | ok resp => exact .found [] i is rfl ⟨rfl, nofun, ho, rfl, rfl⟩
    | error e =>
      have hfail : Fails ups i := ⟨e, ho⟩
      cases ih (updateRTT table (ups.get i).upstream.address defaultTimeout) with
      | found failed k rest hsplit hs =>
        exact .found (i :: failed) k rest (congrArg (i :: ·) hsplit) ⟨congrArg (i :: ·) hs.tried,
          List.forall_mem_cons.mpr ⟨hfail, hs.fails⟩, hs.reply, hs.upstream, hs.err⟩
      | exhausted hx =>
        exact .exhausted
          ⟨congrArg (i :: ·) hx.tried, List.forall_mem_cons.mpr ⟨hfail, hx.fails⟩, hx.err⟩

theorem takeNext_updates (order : List (Fin ups.length)) (table : RTTTable) :
    (takeNext ups order table).updates = (takeNext ups order table).tried.map (charge ups) ∧
      (takeNext ups order table).table =
        applyUpdates table (takeNext ups order table).updates := by
  induction order generalizing table with
  | nil => exact ⟨rfl, rfl⟩
  | cons i is ih =>
    unfold takeNext
    dsimp only
    cases ho : (ups.get i).outcome with
    | ok resp => exact ⟨(congrArg (fun c => [c]) (charge_ok ho)).symm, rfl⟩
    | error e =>
      obtain ⟨hupdates, htable⟩ := ih (updateRTT table (ups.get i).upstream.address defaultTimeout)
      exact ⟨congrArg₂ List.cons (charge_error ho).symm hupdates, htable⟩

theorem exchangeOnly_spec (table : RTTTable) (i : Fin ups.length) :
    Ends (exchangeOnly ups table i) [i] := by
  unfold exchangeOnly
  dsimp only
  cases ho : (ups.get i).outcome with
  | ok resp => exact .found [] i [] rfl ⟨rfl, nofun, ho, rfl, rfl⟩
  | error e => exact .exhausted ⟨rfl, List.forall_mem_singleton.mpr ⟨e, ho⟩, nofun⟩

theorem exchangeOnly_table (table : RTTTable) (i : Fin ups.length) :
    (exchangeOnly ups table i).table = table := by
  unfold exchangeOnly
  dsimp only
  cases (ups.get i).outcome <;> rfl

end Loop

/-! ## The function of `Upstreams` -/

section Env

variable (env : Exchanges) (req : Msg) {ups : List Trial}

/-- The result without the statistics. -/
def LoadBalanced.exchanged (x : LoadBalanced ups.length) : Exchanged :=
  ⟨x.resp, x.u, x.err, x.tried.map fun i => ((ups.get i).upstream, req)⟩

variable (henv : ∀ i, (ups.get i).outcome = env.outcome (ups.get i).upstream req)
include henv

theorem takeNext_eq (order : List (Fin ups.length)) (table : RTTTable) :
    (takeNext ups order table).exchanged req =
      exchangeDrawn env req (order.map fun i => (ups.get i).upstream) := by
  induction order generalizing table with
  | nil => rfl
  | cons i is ih =>
    rw [List.map_cons, takeNext, exchangeDrawn, ← henv i]
    cases (ups.get i).outcome with
    | ok resp => rfl
    | error e =>
      rw [← ih (updateRTT table (ups.get i).upstream.address defaultTimeout)]
      rfl

theorem exchangeOnly_eq (table : RTTTable) (i : Fin ups.length) :
    (exchangeOnly ups table i).exchanged req = exchangeSingle env (ups.get i).upstream req := by
  unfold exchangeOnly exchangeSingle
  rw [← henv i]
  dsimp only
  cases (ups.get i).outcome <;> rfl

omit henv in
theorem exchangeUpstreams_drawn (pf : Platform) {us : List Upstream} (h : us.length ≠ 1) :
    exchangeUpstreams pf .loadBalance env req us = exchangeDrawn env req (env.draws us) := by
  match us with
  | [] => rfl
  | [_] => exact absurd rfl h
  | _ :: _ :: _ => rfl

/-- With one result for each upstream, this is `exchangeUpstreams`. -/
theorem exchangeLoadBalance_eq (pf : Platform) (sampler : List Float → List (Fin ups.length))
    (hdraws : ∀ w, (sampler w).map (fun i => (ups.get i).upstream) =
      env.draws (ups.map (·.upstream))) (table : RTTTable) :
    (exchangeLoadBalance ups sampler table).exchanged req =
      exchangeUpstreams pf .loadBalance env req (ups.map (·.upstream)) := by
  unfold exchangeLoadBalance
  split
  · next h =>
    obtain ⟨c, rfl⟩ := List.length_eq_one_iff.mp h
    exact exchangeOnly_eq env req henv table 0
  · next h =>
    rw [takeNext_eq env req henv, hdraws,
      exchangeUpstreams_drawn env req pf (by rwa [List.length_map])]

end Env

/-! ## The whole exchange -/

/-- What becomes of a request, with the statistics before it. -/
structure FailsOver (ups : List Trial) (table : RTTTable) (x : LoadBalanced ups.length) :
    Prop where
  once : x.tried.Nodup
  succeeds : x.err = none → ∃ failed i, SucceedsAt x failed i
  err_iff : x.err ≠ none ↔ ∀ i, i ∈ x.tried ∧ Fails ups i
  updates : 2 ≤ ups.length →
    x.updates = x.tried.map (charge ups) ∧ x.table = applyUpdates table x.updates
  statistics : 2 ≤ ups.length → ∀ a, (x.table a).getD {} =
    ((table a).getD {}).after (durations a (x.tried.map (charge ups)))
  frame : ∀ a, (∀ i ∈ x.tried, (ups.get i).upstream.address ≠ a) → x.table a = table a

section FailsOver

variable {ups : List Trial} {table : RTTTable} {x : LoadBalanced ups.length}
  {order : List (Fin ups.length)}

theorem Ends.nodup (h : Ends x order) (horder : order.Perm (List.finRange ups.length)) :
    x.tried.Nodup := by
  have hnodup : order.Nodup := horder.nodup_iff.mpr (List.nodup_finRange _)
  cases h with
  | found failed i rest hsplit hs =>
    rw [hsplit, List.append_cons] at hnodup
    rw [hs.tried]
    exact hnodup.of_append_left
  | exhausted hx => exact hx.tried ▸ hnodup

theorem Ends.err_iff (h : Ends x order) (horder : order.Perm (List.finRange ups.length)) :
    x.err ≠ none ↔ ∀ i, i ∈ x.tried ∧ Fails ups i := by
  cases h with
  | found failed i rest _ hs =>
    refine ⟨fun herr => absurd hs.err herr, fun hall => ?_⟩
    obtain ⟨e, he⟩ := (hall i).2
    exact absurd (he.symm.trans hs.reply) nofun
  | exhausted hx =>
    refine iff_of_true hx.err fun i => ?_
    have hi : i ∈ order := horder.mem_iff.mpr (List.mem_finRange i)
    exact ⟨hx.tried ▸ hi, hx.fails i hi⟩

theorem Ends.succeeds (h : Ends x order) (herr : x.err = none) :
    ∃ failed i, SucceedsAt x failed i := by
  cases h with
  | found failed i _ _ hs => exact ⟨failed, i, hs⟩
  | exhausted hx => exact absurd herr hx.err

end FailsOver

/-- The upstreams are tried one after the other until one of them answers. -/
theorem loadBalance_failover (ups : List Trial) (sampler : List Float → List (Fin ups.length))
    (hsampler : ∀ w, (sampler w).Perm (List.finRange ups.length)) (table : RTTTable) :
    FailsOver ups table (exchangeLoadBalance ups sampler table) := by
  unfold exchangeLoadBalance
  split
  · next h =>
    obtain ⟨c, rfl⟩ := List.length_eq_one_iff.mp h
    have hends := @exchangeOnly_spec [c] table 0
    have hall : [0].Perm (List.finRange [c].length) := .refl _
    refine ⟨hends.nodup hall, hends.succeeds, hends.err_iff hall, fun hlen => absurd hlen nofun,
      fun hlen => absurd hlen nofun, ?_⟩
    exact fun a _ => congrFun (@exchangeOnly_table [c] table 0) a
  · have hends := takeNext_spec (sampler (calcWeights table (ups.map (·.upstream)))) table
    obtain ⟨hupdates, htable⟩ := takeNext_updates
      (sampler (calcWeights table (ups.map (·.upstream)))) table
    refine ⟨hends.nodup (hsampler _), hends.succeeds, hends.err_iff (hsampler _),
      fun _ => ⟨hupdates, htable⟩, fun _ a => ?_, fun a ha => ?_⟩
    · rw [htable, applyUpdates_stats, hupdates]
    rw [htable]
    refine applyUpdates_frame (fun x hx => ?_) table
    obtain ⟨i, hi, rfl⟩ := List.mem_map.mp (hupdates ▸ hx)
    exact charge_address i ▸ ha i hi

/-- Two upstreams, of which the first fails. -/
def twoTrials : List Trial :=
  [⟨⟨⟨0, [49]⟩, .error (.text "timeout")⟩, 5⟩, ⟨⟨⟨1, [50]⟩, .ok none⟩, 7⟩]

def drawnInOrder (_ : List Float) : List (Fin twoTrials.length) := List.finRange twoTrials.length

theorem loadBalance_failover_second :
    (∀ w, (drawnInOrder w).Perm (List.finRange twoTrials.length)) ∧
      FailsOver twoTrials (fun _ => none)
        (exchangeLoadBalance twoTrials drawnInOrder fun _ => none) :=
  ⟨fun _ => .refl _, loadBalance_failover twoTrials drawnInOrder (fun _ => .refl _) _⟩

end DnsProxy
