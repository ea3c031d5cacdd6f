import ByeMachine.Script

/-!
# Authority rotation

A live authority changes hands in two calls: the administrator proposes a key
and that key accepts. Over any run of calls what stands in a pending slot is the
last proposal that went through for its role, and nothing since.
-/

namespace ByeMachine

open Fallible

-- ---------------------------------------------------------------------------
-- The eight keys
-- ---------------------------------------------------------------------------

section Slots

variable (config : ProtocolConfig) (key : Pubkey) (role other : AuthorityRole)

@[simp] theorem currentAuthority_setLive : currentAuthority (setLive config key role) other
    = if other = role then key else currentAuthority config other := by
  cases role <;> cases other <;> rfl

@[simp] theorem currentAuthority_setPending :
    currentAuthority (setPending config key role) other = currentAuthority config other := by
  cases role <;> cases other <;> rfl

@[simp] theorem pendingAuthority_setPending : pendingAuthority (setPending config key role) other
    = if other = role then key else pendingAuthority config other := by
  cases role <;> cases other <;> rfl

@[simp] theorem pendingAuthority_setLive :
    pendingAuthority (setLive config key role) other = pendingAuthority config other := by
  cases role <;> cases other <;> rfl

def ProtocolConfig.settings (config : ProtocolConfig) : ProtocolConfig :=
  { config with
    administrator := .default, pendingAdministrator := .default
    operator := .default, pendingOperator := .default
    t03Authority := .default, pendingT03Authority := .default
    t02Authority := .default, pendingT02Authority := .default }

@[simp] theorem settings_setLive : (setLive config key role).settings = config.settings := by
  cases role <;> rfl

@[simp] theorem settings_setPending : (setPending config key role).settings = config.settings := by
  cases role <;> rfl

end Slots

-- ---------------------------------------------------------------------------
-- Calls
-- ---------------------------------------------------------------------------

theorem setAuthorities_ok {clock : Clock} {c c' : Chain} {signer : Pubkey} {role : AuthorityRole}
    {newAuthority : Option Pubkey} {events : List Event} :
    setAuthorities clock c signer role newAuthority = .ok (c', events) ↔
      ∃ config, c.protocolConfig = some config ∧ signer.canSign = true ∧
        ((∃ proposed, newAuthority = some proposed ∧ signer = config.administrator ∧
            c' = { c with protocolConfig := some (setPending config proposed role) } ∧
            events = [.authorityRotated clock.slot signer role (currentAuthority config role)
              proposed .proposed]) ∨
          (newAuthority = none ∧ signer ≠ .default ∧ signer = pendingAuthority config role ∧
            c' = { c with
              protocolConfig := some (setPending (setLive config signer role) .default role) } ∧
            events = [.authorityRotated clock.slot signer role (currentAuthority config role)
              signer .accepted])) := by
  cases newAuthority with
  | some proposed =>
    simp only [setAuthorities, requireSigner, Chain.loadConfig, bind_ok, require_ok, okOr_ok,
      pure_ok, Prod.mk.injEq]
    constructor
    · rintro ⟨-, hsigner, config, hconfig, -, hadmin, rfl, rfl⟩
      exact ⟨config, hconfig, hsigner, .inl ⟨proposed, rfl, hadmin, rfl, rfl⟩⟩
    · rintro ⟨config, hconfig, hsigner, ⟨_, hsome, hadmin, rfl, rfl⟩ | ⟨hnone, -⟩⟩
      · obtain rfl := Option.some.inj hsome
        exact ⟨(), hsigner, config, hconfig, (), hadmin, rfl, rfl⟩
      · cases hnone
  | none =>
    simp only [setAuthorities, requireSigner, Chain.loadConfig, bind_ok, require_ok, okOr_ok,
      pure_ok, Prod.mk.injEq]
    constructor
    · rintro ⟨-, hsigner, config, hconfig, -, hdefault, -, hpending, rfl, rfl⟩
      exact ⟨config, hconfig, hsigner, .inr ⟨trivial, hpending ▸ hdefault, hpending, rfl, rfl⟩⟩
    · rintro ⟨config, hconfig, hsigner, ⟨_, hsome, -⟩ | ⟨-, hdefault, hpending, rfl, rfl⟩⟩
      · cases hsome
      · exact ⟨(), hsigner, config, hconfig, (), hpending ▸ hdefault, (), hpending, rfl, rfl⟩

structure AuthorityCall where
  clock : Clock
  signer : Pubkey
  role : AuthorityRole
  newAuthority : Option Pubkey

def AuthorityCall.run (call : AuthorityCall) (c : Chain) : Outcome :=
  setAuthorities call.clock c call.signer call.role call.newAuthority

def AuthorityCall.succeeds (call : AuthorityCall) (c : Chain) : Bool := (call.run c).isOk

/-- The ledger after the call: a failing one reverts. -/
def AuthorityCall.after (call : AuthorityCall) (c : Chain) : Chain :=
  ((call.run c).toOption.map Prod.fst).getD c

def afterCalls (calls : List AuthorityCall) (c : Chain) : Chain :=
  calls.foldl (fun c call => call.after c) c

variable {c c₀ : Chain} {config config₀ : ProtocolConfig} {call : AuthorityCall}
  {calls : List AuthorityCall} {role : AuthorityRole} {key : Pubkey} {i j : ℕ}

theorem afterCalls_append (more : List AuthorityCall) :
    afterCalls (calls ++ more) c = afterCalls more (afterCalls calls c) := List.foldl_append

theorem afterCalls_concat : afterCalls (calls ++ [call]) c = call.after (afterCalls calls c) :=
  afterCalls_append [call]

theorem after_failed (h : call.succeeds c = false) : call.after c = c := by
  unfold AuthorityCall.succeeds at h
  unfold AuthorityCall.after
  cases hrun : call.run c with
  | error e => rfl
  | ok answer => simp [hrun, Except.isOk, Except.toBool] at h

/-- What a call leaves of the configuration: a failing one reverts, a proposal fills its role's
pending slot, an acceptance empties it and hands its signer the live one. -/
inductive Rotates (config : ProtocolConfig) (call : AuthorityCall) : Bool → ProtocolConfig → Prop where
  | failed : Rotates config call false config
  | proposed {key : Pubkey} (hnew : call.newAuthority = some key)
      (hadmin : call.signer = config.administrator) :
      Rotates config call true (setPending config key call.role)
  | accepted (hnew : call.newAuthority = none) (hdefault : call.signer ≠ .default)
      (hpending : call.signer = pendingAuthority config call.role) :
      Rotates config call true
        (setPending (setLive config call.signer call.role) .default call.role)

theorem AuthorityCall.rotates (call : AuthorityCall) (hconfig : c.protocolConfig = some config) :
    ∃ config', call.after c = { c with protocolConfig := some config' } ∧
      Rotates config call (call.succeeds c) config' := by
  cases hrun : call.run c with
  | error e =>
    have hfailed : call.succeeds c = false := by simp [succeeds, hrun, Except.isOk, Except.toBool]
    rw [after_failed hfailed, hfailed]
    exact ⟨config, by rw [← hconfig], .failed⟩
  | ok answer =>
    obtain ⟨c', events⟩ := answer
    have hsucceeds : call.succeeds c = true := by simp [succeeds, hrun, Except.isOk, Except.toBool]
    have hafter : call.after c = c' := by simp [AuthorityCall.after, hrun, Except.toOption]
    obtain ⟨found, hfound, -, h⟩ := setAuthorities_ok.mp hrun
    obtain rfl := Option.some.inj (hconfig.symm.trans hfound)
    rw [hsucceeds, hafter]
    obtain ⟨key, hnew, hadmin, rfl, -⟩ | ⟨hnew, hdefault, hpending, rfl, -⟩ := h
    · exact ⟨_, rfl, .proposed hnew hadmin⟩
    · exact ⟨_, rfl, .accepted hnew hdefault hpending⟩

theorem Rotates.frame {config' : ProtocolConfig} {succeeded : Bool}
    (h : Rotates config call succeeded config') :
    (∀ other, other ≠ call.role → currentAuthority config' other = currentAuthority config other ∧
      pendingAuthority config' other = pendingAuthority config other) ∧
      config'.settings = config.settings := by
  cases h with
  | failed => exact ⟨fun _ _ => ⟨rfl, rfl⟩, rfl⟩
  | proposed | accepted =>
    refine ⟨fun other hother => ?_, ?_⟩
    · simp [hother]
    · simp

/-- A live authority changes only by the acceptance of the key it changes to. -/
theorem Rotates.changed {config' : ProtocolConfig} {succeeded : Bool}
    (h : Rotates config call succeeded config')
    (hchanged : currentAuthority config' role ≠ currentAuthority config role) :
    succeeded = true ∧ call.role = role ∧ call.newAuthority = none ∧
      call.signer = currentAuthority config' role := by
  cases h with
  | failed => exact absurd rfl hchanged
  | proposed => simp at hchanged
  | accepted hnew hdefault hpending =>
    have hrole : role = call.role := by
      by_contra hother
      simp [hother] at hchanged
    exact ⟨rfl, hrole.symm, hnew, by simp [hrole]⟩

-- ---------------------------------------------------------------------------
-- Standing proposals
-- ---------------------------------------------------------------------------

/-- The `i`-th call proposed `key` for the role, went through on the signature of the key that was
administrator then, and is the last call for the role that went through. -/
structure Standing (c₀ : Chain) (calls : List AuthorityCall) (role : AuthorityRole) (key : Pubkey)
    (i : ℕ) : Prop where
  intro ::
  split : ∃ past call since, calls = past ++ call :: since ∧ past.length = i ∧ call.role = role ∧
    call.newAuthority = some key ∧ call.succeeds (afterCalls past c₀) = true ∧
    (∃ config, (afterCalls past c₀).protocolConfig = some config ∧
      call.signer = config.administrator) ∧
    ∀ between later rest, since = between ++ later :: rest → later.role = role →
      later.succeeds (afterCalls (past ++ call :: between) c₀) = false

theorem Standing.lt (h : Standing c₀ calls role key i) : i < calls.length := by
  obtain ⟨past, call, since, rfl, rfl, -⟩ := h.split
  simp

theorem Standing.proposed (hconfig : (afterCalls calls c₀).protocolConfig = some config)
    (hnew : call.newAuthority = some key) (hadmin : call.signer = config.administrator)
    (hsucceeds : call.succeeds (afterCalls calls c₀) = true) :
    Standing c₀ (calls ++ [call]) call.role key calls.length := by
  refine ⟨calls, call, [], rfl, rfl, rfl, hnew, hsucceeds, ⟨config, hconfig, hadmin⟩, ?_⟩
  intro between later rest hsplit
  simp at hsplit

theorem Standing.kept (h : Standing c₀ calls role key i)
    (hkept : call.role = role → call.succeeds (afterCalls calls c₀) = false) :
    Standing c₀ (calls ++ [call]) role key i := by
  obtain ⟨past, first, since, rfl, hlength, hrole, hnew, hsucceeds, hadmin, hsince⟩ := h.split
  refine ⟨past, first, since ++ [call], by simp, hlength, hrole, hnew, hsucceeds, hadmin, ?_⟩
  intro between later rest hsplit hlater
  rcases List.eq_nil_or_concat rest with rfl | ⟨rest, last, rfl⟩
  · obtain ⟨rfl, hlast⟩ := List.append_inj' hsplit rfl
    obtain rfl : call = later := by simpa using hlast
    exact hkept hlater
  · refine hsince between later rest ?_ hlater
    have hsplit' : since ++ [call] = (between ++ later :: rest) ++ [last] := by simpa using hsplit
    exact (List.append_inj' hsplit' rfl).1

theorem Standing.of_concat (h : Standing c₀ (calls ++ [call]) role key i) :
    (i = calls.length ∧ call.role = role ∧ call.newAuthority = some key ∧
      call.succeeds (afterCalls calls c₀) = true) ∨
      (Standing c₀ calls role key i ∧
        (call.role = role → call.succeeds (afterCalls calls c₀) = false)) := by
  obtain ⟨past, first, since, hsplit, hlength, hrole, hnew, hsucceeds, hadmin, hsince⟩ := h.split
  rcases List.eq_nil_or_concat since with rfl | ⟨since, last, rfl⟩
  · obtain ⟨rfl, hlast⟩ := List.append_inj' hsplit rfl
    obtain rfl : call = first := by simpa using hlast
    exact .inl ⟨hlength.symm, hrole, hnew, hsucceeds⟩
  · have hsplit' : calls ++ [call] = (past ++ first :: since) ++ [last] := by simpa using hsplit
    obtain ⟨rfl, hlast⟩ := List.append_inj' hsplit' rfl
    obtain rfl : call = last := by simpa using hlast
    refine .inr ⟨⟨past, first, since, rfl, hlength, hrole, hnew, hsucceeds, hadmin, ?_⟩, ?_⟩
    · intro between later rest hmid hlater
      exact hsince between later (rest ++ [call]) (by simp [hmid]) hlater
    · exact hsince since call [] (by simp)

/-- Over a run from empty pending slots, a key stands in a slot exactly where the proposal for it
does. -/
theorem pending_standing (hconfig₀ : c₀.protocolConfig = some config₀)
    (hempty : ∀ role, pendingAuthority config₀ role = .default) (calls : List AuthorityCall) :
    ∃ config, afterCalls calls c₀ = { c₀ with protocolConfig := some config } ∧
      ∀ role, (pendingAuthority config role ≠ .default →
          ∃ i, Standing c₀ calls role (pendingAuthority config role) i) ∧
        ∀ key i, Standing c₀ calls role key i → pendingAuthority config role = key := by
  induction calls using List.reverseRecOn with
  | nil =>
    refine ⟨config₀, by rw [← hconfig₀]; rfl, fun role => ⟨fun h => absurd (hempty role) h, ?_⟩⟩
    intro key i h
    exact absurd h.lt (by simp)
  | append_singleton calls call ih =>
    obtain ⟨config, hafter, hslots⟩ := ih
    have hconfig : (afterCalls calls c₀).protocolConfig = some config := by rw [hafter]
    obtain ⟨config', hnext, hrotates⟩ := call.rotates hconfig
    refine ⟨config', by rw [afterCalls_concat, hnext, hafter], fun role => ?_⟩
    obtain ⟨hstands, hslot⟩ := hslots role
    generalize hdone : call.succeeds (afterCalls calls c₀) = done at hrotates
    cases hrotates with
    | failed =>
      refine ⟨fun h => ?_, fun key i h => ?_⟩
      · obtain ⟨i, hi⟩ := hstands h
        exact ⟨i, hi.kept fun _ => hdone⟩
      · obtain ⟨-, -, -, hsucceeds⟩ | ⟨hold, -⟩ := h.of_concat
        · rw [hdone] at hsucceeds
          cases hsucceeds
        · exact hslot key i hold
    | proposed hnew hadmin =>
      by_cases hrole : role = call.role
      · subst hrole
        rw [pendingAuthority_setPending, if_pos rfl]
        refine ⟨fun _ => ⟨_, .proposed hconfig hnew hadmin hdone⟩, fun key i h => ?_⟩
        obtain ⟨-, -, hkey, -⟩ | ⟨-, hfailed⟩ := h.of_concat
        · exact Option.some.inj (hnew.symm.trans hkey)
        · rw [hdone] at hfailed
          cases hfailed rfl
      · rw [pendingAuthority_setPending, if_neg hrole]
        refine ⟨fun h => ?_, fun key i h => ?_⟩
        · obtain ⟨i, hi⟩ := hstands h
          exact ⟨i, hi.kept fun heq => absurd heq.symm hrole⟩
        · obtain ⟨-, heq, -⟩ | ⟨hold, -⟩ := h.of_concat
          · exact absurd heq.symm hrole
          · exact hslot key i hold
    | accepted hnew hdefault hpending =>
      by_cases hrole : role = call.role
      · subst hrole
        rw [pendingAuthority_setPending, if_pos rfl]
        refine ⟨fun h => absurd rfl h, fun key i h => ?_⟩
        obtain ⟨-, -, hkey, -⟩ | ⟨-, hfailed⟩ := h.of_concat
        · rw [hnew] at hkey
          cases hkey
        · rw [hdone] at hfailed
          cases hfailed rfl
      · rw [pendingAuthority_setPending, if_neg hrole, pendingAuthority_setLive]
        refine ⟨fun h => ?_, fun key i h => ?_⟩
        · obtain ⟨i, hi⟩ := hstands h
          exact ⟨i, hi.kept fun heq => absurd heq.symm hrole⟩
        · obtain ⟨-, heq, -⟩ | ⟨hold, -⟩ := h.of_concat
          · exact absurd heq.symm hrole
          · exact hslot key i hold

-- ---------------------------------------------------------------------------
-- The protocol
-- ---------------------------------------------------------------------------

theorem Standing.before {more : List AuthorityCall} (h : Standing c₀ (calls ++ more) role key i)
    (hi : i < calls.length) : Standing c₀ calls role key i := by
  induction more using List.reverseRecOn with
  | nil => simpa using h
  | append_singleton more last ih =>
    rw [← List.append_assoc] at h
    obtain ⟨rfl, -⟩ | ⟨hold, -⟩ := h.of_concat
    · simp at hi
    · exact ih hold

theorem Standing.role_eq {other : AuthorityRole} {key' : Pubkey}
    (h : Standing c₀ calls role key i) (h' : Standing c₀ calls other key' i) : role = other := by
  obtain ⟨past, call, since, rfl, rfl, rfl, -⟩ := h.split
  obtain ⟨past', call', since', hsplit, hlength, rfl, -⟩ := h'.split
  obtain ⟨-, hcalls⟩ := List.append_inj hsplit hlength.symm
  rw [List.cons.injEq] at hcalls
  rw [hcalls.1]

structure Accepts (c₀ : Chain) (calls : List AuthorityCall) (call : AuthorityCall) (i : ℕ) :
    Prop where
  accepting : call.newAuthority = none
  succeeds : call.succeeds (afterCalls calls c₀) = true
  standing : Standing c₀ calls call.role call.signer i

theorem Accepts.once {more : List AuthorityCall} {later : AuthorityCall}
    (h : Accepts c₀ calls call i) : ¬Accepts c₀ (calls ++ call :: more) later i := by
  intro hlater
  have hi : i < calls.length := h.standing.lt
  have hstanding : Standing c₀ ((calls ++ [call]) ++ more) later.role later.signer i := by
    simpa using hlater.standing
  have hconcat := hstanding.before (by simp; omega)
  obtain ⟨rfl, -⟩ | ⟨hold, hfailed⟩ := hconcat.of_concat
  · exact Nat.lt_irrefl _ hi
  · have hsucceeds := h.succeeds
    rw [hfailed (h.standing.role_eq hold)] at hsucceeds
    cases hsucceeds

/-- What the next call does to the configuration a run of calls has left. -/
structure Rotation (c₀ : Chain) (calls : List AuthorityCall) (call : AuthorityCall)
    (config config' : ProtocolConfig) : Prop where
  /-- A live authority changes only to a key that signs for itself, on the proposal that stands. -/
  live : ∀ role, currentAuthority config' role ≠ currentAuthority config role →
    call.role = role ∧ call.newAuthority = none ∧ call.signer = currentAuthority config' role ∧
      currentAuthority config' role ≠ .default ∧
      ∃ i, Standing c₀ calls role (currentAuthority config' role) i
  /-- Every acceptance that goes through accepts one proposal, which is not accepted again. -/
  accepted : call.newAuthority = none → call.succeeds (afterCalls calls c₀) = true →
    ∃ i, Accepts c₀ calls call i ∧
      ∀ more later, ¬Accepts c₀ (calls ++ call :: more) later i
  /-- A proposal that goes through replaces whatever stood, and only its own key can accept it:
  no key at all where it proposes the default one. -/
  replaced : ∀ key, call.newAuthority = some key → call.succeeds (afterCalls calls c₀) = true →
    (∀ key' i, Standing c₀ (calls ++ [call]) call.role key' i ↔ key' = key ∧ i = calls.length) ∧
      ∀ next : AuthorityCall, next.role = call.role → next.newAuthority = none →
        (next.succeeds (afterCalls (calls ++ [call]) c₀) = true ↔
          next.signer = key ∧ key.canSign = true)
  /-- The other roles' keys and the other fields stay. -/
  frame : (∀ other, other ≠ call.role →
      currentAuthority config' other = currentAuthority config other ∧
        pendingAuthority config' other = pendingAuthority config other) ∧
    config'.settings = config.settings

theorem canSign_ne_default (h : key.canSign = true) : key ≠ .default := by
  rintro rfl
  cases h

/-- An acceptance goes through exactly for the key in its role's pending slot. -/
theorem acceptance_succeeds (hconfig : c.protocolConfig = some config)
    (hnew : call.newAuthority = none) : call.succeeds c = true ↔
      call.signer = pendingAuthority config call.role ∧ call.signer.canSign = true := by
  unfold AuthorityCall.succeeds
  rw [isOk_iff]
  constructor
  · rintro ⟨⟨c', events⟩, hrun⟩
    obtain ⟨found, hfound, hsigner, h⟩ := setAuthorities_ok.mp hrun
    obtain rfl := Option.some.inj (hconfig.symm.trans hfound)
    obtain ⟨key, hsome, -⟩ | ⟨-, -, hpending, -⟩ := h
    · rw [hnew] at hsome
      cases hsome
    · exact ⟨hpending, hsigner⟩
  · rintro ⟨hpending, hsigner⟩
    exact ⟨_, setAuthorities_ok.mpr ⟨config, hconfig, hsigner,
      .inr ⟨hnew, canSign_ne_default hsigner, hpending, rfl, rfl⟩⟩⟩

/-- Over every run of calls from empty pending slots, each call keeps to the rotation protocol. -/
theorem authority_rotation (hconfig₀ : c₀.protocolConfig = some config₀)
    (hempty : ∀ role, pendingAuthority config₀ role = .default) (calls : List AuthorityCall)
    (call : AuthorityCall) :
    ∃ config config', afterCalls calls c₀ = { c₀ with protocolConfig := some config } ∧
      afterCalls (calls ++ [call]) c₀ = { c₀ with protocolConfig := some config' } ∧
      Rotation c₀ calls call config config' := by
  obtain ⟨config, hafter, hslots⟩ := pending_standing hconfig₀ hempty calls
  obtain ⟨config', hafter', hslots'⟩ := pending_standing hconfig₀ hempty (calls ++ [call])
  have hconfig : (afterCalls calls c₀).protocolConfig = some config := by rw [hafter]
  have hconfig' : (afterCalls (calls ++ [call]) c₀).protocolConfig = some config' := by rw [hafter']
  obtain ⟨next, hnext, hrotates⟩ := call.rotates hconfig
  obtain rfl : config' = next := by
    rw [afterCalls_concat, hnext] at hconfig'
    exact (Option.some.inj hconfig').symm
  -- An acceptance that goes through finds its signer's proposal standing.
  have haccepts : call.newAuthority = none → call.succeeds (afterCalls calls c₀) = true →
      ∃ i, Accepts c₀ calls call i := by
    intro hnew hsucceeds
    obtain ⟨hpending, hsigner⟩ := (acceptance_succeeds hconfig hnew).mp hsucceeds
    obtain ⟨i, hi⟩ := (hslots call.role).1 (hpending ▸ canSign_ne_default hsigner)
    exact ⟨i, hnew, hsucceeds, hpending ▸ hi⟩
  refine ⟨config, config', hafter, hafter', ?_, ?_, ?_, hrotates.frame⟩
  · intro role hchanged
    obtain ⟨hsucceeds, rfl, hnew, hsigner⟩ := hrotates.changed hchanged
    obtain ⟨-, hcanSign⟩ := (acceptance_succeeds hconfig hnew).mp hsucceeds
    obtain ⟨i, -, -, hstanding⟩ := haccepts hnew hsucceeds
    exact ⟨rfl, hnew, hsigner, hsigner ▸ canSign_ne_default hcanSign, i, hsigner ▸ hstanding⟩
  · intro hnew hsucceeds
    obtain ⟨i, hi⟩ := haccepts hnew hsucceeds
    exact ⟨i, hi, fun more later => hi.once⟩
  · intro key hnew hsucceeds
    rw [hsucceeds] at hrotates
    have hstanding : Standing c₀ (calls ++ [call]) call.role key calls.length := by
      cases hrotates with
      | proposed _ hadmin => exact .proposed hconfig hnew hadmin hsucceeds
      | accepted hnone =>
        rw [hnew] at hnone
        cases hnone
    refine ⟨fun key' i => ⟨fun h => ?_, ?_⟩, fun next hrole hnone => ?_⟩
    · obtain ⟨hi, -, hkey, -⟩ | ⟨-, hfailed⟩ := h.of_concat
      · exact ⟨Option.some.inj (hkey.symm.trans hnew), hi⟩
      · rw [hfailed rfl] at hsucceeds
        cases hsucceeds
    · rintro ⟨rfl, rfl⟩
      exact hstanding
    · rw [acceptance_succeeds hconfig' hnone, hrole, (hslots' call.role).2 key _ hstanding]
      exact ⟨fun ⟨hkey, hsigner⟩ => ⟨hkey, hkey ▸ hsigner⟩,
        fun ⟨hkey, hsigner⟩ => ⟨hkey, hkey ▸ hsigner⟩⟩

def bankStart : Chain := { bankGenesis with protocolConfig := some bankConfig }

/-- The bank's operator hands over to wallet 30. -/
def handover : AuthorityCall := ⟨⟨1, 1⟩, .key 1, .operator, some (.key 30)⟩

def takeover : AuthorityCall := ⟨⟨2, 2⟩, .key 30, .operator, none⟩

theorem authority_rotation_bank :
    ∃ config config', afterCalls [handover] bankStart
        = { bankStart with protocolConfig := some config } ∧
      afterCalls [handover, takeover] bankStart
        = { bankStart with protocolConfig := some config' } ∧
      Rotation bankStart [handover] takeover config config' := by
  have hconfig : bankStart.protocolConfig = some bankConfig := rfl
  have hempty : ∀ role, pendingAuthority bankConfig role = .default := fun role => by
    cases role <;> rfl
  exact authority_rotation hconfig hempty [handover] takeover

end ByeMachine
