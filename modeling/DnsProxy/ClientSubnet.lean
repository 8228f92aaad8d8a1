import DnsProxy.ClientShape

/-!
# The subnet in the request

`processECS` decides on a subnet for the cache and leaves one in the request for the
upstream. It takes the client's own option when that has a prefix, and appends one
made from the client's address otherwise. It never takes an option away, so the two
subnets agree only as long as the option that `ecsFromMsg` finds first is the only
one.
-/

namespace DnsProxy

open Net

def EDNS0.isSubnet : EDNS0 → Bool
  | .subnet .. => true
  | .other .. => false

/-- The number of client subnet options of the records. -/
def countSubnets (rs : List RR) : Nat := (rs.flatMap RR.options).countP EDNS0.isSubnet

/-- The number of client subnet options of a message, in all its records. -/
def Msg.subnetCount (m : Msg) : Nat := countSubnets m.records

/-- The message has a subnet option of a known family with a prefix. -/
def Msg.HasPrefix (m : Msg) : Prop := ∃ ecs scope, ecsFromMsg m = some (ecs, scope) ∧
  (maskSize ecs.mask).1 ≠ 0

/-- The request of `d'` carries the subnet that the cache uses, and is the request of
`d` if the cache uses none. -/
def CarriesSubnet (d d' : DNSContext) : Prop :=
  match d'.reqECS with
  | some ecs => d'.req.subnetCount = 1 ∧ (ecsFromMsg d'.req).map Prod.fst = some ecs
  | none => d'.req = d.req

instance (d d' : DNSContext) : Decidable (CarriesSubnet d d') := by
  unfold CarriesSubnet
  split <;> infer_instance

/-! ## Counting options -/

@[simp] theorem countSubnets_nil : countSubnets [] = 0 := rfl

@[simp] theorem countSubnets_cons (r : RR) (rs : List RR) :
    countSubnets (r :: rs) = r.options.countP EDNS0.isSubnet + countSubnets rs := by
  simp [countSubnets]

@[simp] theorem countSubnets_append (rs rs' : List RR) :
    countSubnets (rs ++ rs') = countSubnets rs + countSubnets rs' := by
  simp [countSubnets]

@[simp] theorem countSubnets_reverse (rs : List RR) :
    countSubnets rs.reverse = countSubnets rs := by
  induction rs with
  | nil => rfl
  | cons r rs ih => simp [ih, Nat.add_comm]

theorem options_addOption {e : EDNS0} {r : RR} (hr : r.rrtype = typeOPT) :
    (addOption e r).options = r.options ++ [e] := by
  obtain ⟨name, rclass, ttl, rdata⟩ := r
  cases rdata with
  | opt os => rfl
  | a ip => exact absurd (show typeA = typeOPT from hr) (by decide)
  | aaaa ip => exact absurd (show typeAAAA = typeOPT from hr) (by decide)
  | other t data => exact absurd hr t.2.2.2

theorem rrtype_of_isEdns0 {m : Msg} {opt : RR} (h : m.isEdns0 = some opt) :
    opt.rrtype = typeOPT := by
  simpa using List.find?_some h

theorem countSubnets_modify {e : EDNS0} (he : e.isSubnet = true) (rs : List RR)
    (h : rs.find? (fun r => r.rrtype == typeOPT) ≠ none) :
    countSubnets (rs.modify (rs.findIdx fun r => r.rrtype == typeOPT) (addOption e)) =
      countSubnets rs + 1 := by
  induction rs with
  | nil => exact absurd rfl h
  | cons r rs ih =>
    cases hr : r.rrtype == typeOPT with
    | true =>
      have hos := options_addOption (e := e) (beq_iff_eq.mp hr)
      simp only [List.findIdx_cons, hr, cond_true, List.modify_zero_cons, countSubnets_cons, hos,
        List.countP_append, List.countP_singleton, he, if_true]
      exact Nat.add_right_comm _ _ _
    | false =>
      have hrest := ih (by simpa [hr] using h)
      simp only [List.findIdx_cons, hr, cond_false, List.modify_succ_cons, countSubnets_cons, hrest]
      exact (Nat.add_assoc _ _ _).symm

theorem subnetCount_setECS (m : Msg) (ip : IP) (scope : UInt8) :
    (setECS m ip scope).1.subnetCount = m.subnetCount + 1 := by
  unfold setECS
  simp only
  split
  · simp [Msg.subnetCount, Msg.records, RR.options, EDNS0.isSubnet, Nat.add_assoc]
  · next h =>
    have hmod := countSubnets_modify
      (e := .subnet (ecsNetwork ip).1 (UInt8.ofNat (ecsNetwork ip).2.1) scope
        (ecsNetwork ip).2.2.ip) rfl m.extra.reverse h
    simp only [countSubnets_reverse] at hmod
    simp [Msg.subnetCount, Msg.records, modifyOPT, hmod, Nat.add_assoc]

/-! ## The option that is found -/

theorem firstSubnet_append {os : List EDNS0} (h : os.countP EDNS0.isSubnet = 0) (os' : List EDNS0) :
    firstSubnet (os ++ os') = firstSubnet os' := by
  induction os with
  | nil => rfl
  | cons o os ih =>
    cases o with
    | subnet => simp [EDNS0.isSubnet] at h
    | other code data =>
      simp only [List.countP_cons, EDNS0.isSubnet, Bool.false_eq_true, if_false, Nat.add_zero] at h
      simpa [firstSubnet] using ih h

theorem countP_pos_of_firstSubnet {os : List EDNS0} {found : IPNet × Nat}
    (h : firstSubnet os = some found) : 0 < os.countP EDNS0.isSubnet := by
  by_contra hzero
  have hnone := firstSubnet_append (Nat.eq_zero_of_not_pos hzero) []
  rw [List.append_nil, h] at hnone
  cases hnone

theorem countP_isEdns0_le {m : Msg} {opt : RR} (h : m.isEdns0 = some opt) :
    opt.options.countP EDNS0.isSubnet ≤ m.subnetCount := by
  have hmem : opt ∈ m.records := by
    have hextra := List.mem_of_find?_eq_some h
    simp only [List.mem_reverse] at hextra
    exact List.mem_append_right _ hextra
  obtain ⟨before, after, hsplit⟩ := List.append_of_mem hmem
  rw [Msg.subnetCount, hsplit, countSubnets_append, countSubnets_cons]
  exact Nat.le_trans (Nat.le_add_right _ _) (Nat.le_add_left _ _)

theorem subnetCount_pos_of_ecsFromMsg {m : Msg} {found : IPNet × Nat}
    (h : ecsFromMsg m = some found) : 0 < m.subnetCount := by
  obtain ⟨opt, hopt, hfound⟩ := Option.bind_eq_some_iff.mp h
  exact Nat.lt_of_lt_of_le (countP_pos_of_firstSubnet hfound) (countP_isEdns0_le hopt)

theorem firstSubnet_ecsNetwork (ip : IP) (scope : UInt8) :
    firstSubnet [.subnet (ecsNetwork ip).1 (UInt8.ofNat (ecsNetwork ip).2.1) scope
      (ecsNetwork ip).2.2.ip] = some ((ecsNetwork ip).2.2, scope.toNat) := by
  unfold ecsNetwork
  cases h4 : to4 ip with
  | none => rfl
  | some ip4 =>
    have hlen := length_to4 h4
    have hmask : ipMask (some ip4) (cidrMask defaultECSv4 32) =
        some (BitPrefix.keepBits defaultECSv4 ip4) := ipMask_mask hlen
    have hkeep : to4 (some (BitPrefix.keepBits defaultECSv4 ip4)) =
        some (BitPrefix.keepBits defaultECSv4 ip4) := to4_of_length (by simpa using hlen)
    simp only [firstSubnet, hmask, hkeep]
    rfl

theorem ecsFromMsg_setECS {m : Msg} (h : m.subnetCount = 0) (ip : IP) (scope : UInt8) :
    ecsFromMsg (setECS m ip scope).1 = some ((setECS m ip scope).2, scope.toNat) := by
  have hread := firstSubnet_ecsNetwork ip scope
  unfold setECS ecsFromMsg
  simp only
  split
  · simpa [Msg.isEdns0, RR.rrtype, RData.rrtype, RR.options] using hread
  · next hne =>
    obtain ⟨opt, hopt⟩ := Option.ne_none_iff_exists'.mp hne
    rw [isEdns0_modifyOPT m (rrtype_addOption _), hopt]
    have hzero : opt.options.countP EDNS0.isSubnet = 0 :=
      Nat.le_zero.mp (h ▸ countP_isEdns0_le hopt)
    have hos := options_addOption (e := .subnet (ecsNetwork ip).1
      (UInt8.ofNat (ecsNetwork ip).2.1) scope (ecsNetwork ip).2.2.ip) (rrtype_of_isEdns0 hopt)
    simp only [Option.map_some, Option.bind_some, hos, firstSubnet_append hzero, hread]

/-! ## Agreement -/

theorem processECS_of_hasPrefix {pf : Platform} {cliIP : IP} {d : DNSContext} {ecs : IPNet}
    {scope : Nat} (h : ecsFromMsg d.req = some (ecs, scope)) (hones : (maskSize ecs.mask).1 ≠ 0) :
    processECS pf cliIP d = { d with reqECS := some ecs } := by
  unfold processECS
  simp [h, hones]

theorem processECS_of_not_hasPrefix {pf : Platform} {cliIP : IP} {d : DNSContext}
    (h : ¬ d.req.HasPrefix) :
    processECS pf cliIP d =
      if pf.isSpecialPurpose (clientAddr cliIP d) = false then
        let ip := if cliIP = none then some d.addr else cliIP
        { d with req := (setECS d.req ip 0).1, reqECS := some (setECS d.req ip 0).2 }
      else d := by
  have hzero : ∀ ecs scope, ecsFromMsg d.req = some (ecs, scope) → (maskSize ecs.mask).1 = 0 := by
    intro ecs scope hecs
    by_contra hones
    exact h ⟨ecs, scope, hecs, hones⟩
  unfold processECS clientAddr
  cases hecs : ecsFromMsg d.req with
  | none => by_cases hip : cliIP = none <;> simp [hip]
  | some found =>
    have hones := hzero found.1 found.2 hecs
    by_cases hip : cliIP = none <;> simp [hip, hones]

/-- The request carries the subnet of the cache exactly when an option with a prefix
is the only one, and a client of a public network without such an option has no
option at all. -/
theorem processECS_carriesSubnet_iff (pf : Platform) (cliIP : IP) (d : DNSContext)
    (hnew : d.reqECS = none) :
    CarriesSubnet d (processECS pf cliIP d) ↔
      (d.req.HasPrefix → d.req.subnetCount ≤ 1) ∧
      (¬ d.req.HasPrefix → pf.isSpecialPurpose (clientAddr cliIP d) = false →
        d.req.subnetCount = 0) := by
  by_cases hpre : d.req.HasPrefix
  · obtain ⟨ecs, scope, hecs, hones⟩ := hpre
    have hpre : d.req.HasPrefix := ⟨ecs, scope, hecs, hones⟩
    have hpos := subnetCount_pos_of_ecsFromMsg hecs
    rw [processECS_of_hasPrefix hecs hones]
    simp only [CarriesSubnet, hecs, Option.map_some, and_true, hpre, not_true_eq_false,
      false_implies, true_implies]
    exact ⟨Nat.le_of_eq, fun h => Nat.le_antisymm h hpos⟩
  · rw [processECS_of_not_hasPrefix hpre]
    cases hspecial : pf.isSpecialPurpose (clientAddr cliIP d) with
    | true => simp [CarriesSubnet, hnew, hpre]
    | false =>
      simp only [if_true, CarriesSubnet, subnetCount_setECS, hpre,
        false_implies, not_false_eq_true, true_implies, true_and, Nat.add_eq_right]
      exact ⟨fun h => h.1, fun h => ⟨h, by rw [ecsFromMsg_setECS h]; rfl⟩⟩

/-- A client of a public network gets a subnet of its own. -/
theorem processECS_carriesSubnet_public :
    CarriesSubnet (publicContext .udp exampleQuery)
      (processECS publicPlatform none (publicContext .udp exampleQuery)) :=
  (processECS_carriesSubnet_iff publicPlatform none _ rfl).mpr
    ⟨fun _ => by decide, fun _ _ => by decide⟩

/-- A query of a client that asks for its address not to be sent. -/
def anonymousQuery : Msg :=
  { exampleQuery with
    extra := [⟨[46], 4096, 0, .opt [.subnet 1 0 0 (some (v4InV6Prefix ++ [0, 0, 0, 0]))]⟩] }

/-- The client's option stays in front of the one that is appended. -/
theorem processECS_anonymousQuery :
    ¬ CarriesSubnet (publicContext .udp anonymousQuery)
      (processECS publicPlatform none (publicContext .udp anonymousQuery)) := by
  decide

end DnsProxy
