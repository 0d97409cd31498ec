/-
# Who passes the guard

In any state that the calls of the API reach together, whom `middleware/auth.ts` lets pass.

* `KeyLive`: a key that was issued and neither revoked nor lost with its membership.
* `access_accounted`: the rows of the keys are the live ones.
* `guard_passes_iff`: a request passes exactly with a live session of a member, or with a live key
  of the tenant that it writes to.
* `credentials_not_revived`: what was refused once is refused ever after.
-/
import Waybill.SignInRuns

namespace Identity

open Webhook (ofHex timingSafeEqual hex isLowerHex)

/-! ## Live keys -/

/-- The entry ends the key: it was revoked, or its creator is no member any more. -/
def Entry.Kills (key : ApiKey) : Entry → Prop
  | revoked _ tenantId id => tenantId = key.tenantId ∧ id = key.id
  | removed membership => membership = ⟨key.createdByUserId, key.tenantId⟩
  | _ => False

/-- The key was issued, and nothing has ended it since. -/
def KeyLive (log : List Entry) (key : ApiKey) : Prop :=
  ∃ pid after before, log = after ++ .issued pid key :: before ∧ ∀ e ∈ after, ¬ e.Kills key

/-- A key is live after an entry that issues it, or does not end it. -/
theorem keyLive_cons {e : Entry} {log : List Entry} {key : ApiKey} :
    KeyLive (e :: log) key ↔ (∃ pid, e = .issued pid key) ∨
      (KeyLive log key ∧ ¬ e.Kills key) := by
  constructor
  · rintro ⟨pid, after, before, hlog, hafter⟩
    cases after with
    | nil =>
        obtain ⟨rfl, rfl⟩ := List.cons.inj hlog
        exact .inl ⟨pid, rfl⟩
    | cons e' after =>
        obtain ⟨rfl, rfl⟩ := List.cons.inj hlog
        exact .inr ⟨⟨pid, after, before, rfl, fun x hx => hafter x (List.mem_cons_of_mem _ hx)⟩,
          hafter _ List.mem_cons_self⟩
  · rintro (⟨pid, rfl⟩ | ⟨⟨pid, after, before, rfl, hafter⟩, hkills⟩)
    · exact ⟨pid, [], log, rfl, fun _ h => by cases h⟩
    · refine ⟨pid, e :: after, before, rfl, fun x hx => ?_⟩
      rcases List.mem_cons.mp hx with rfl | hx
      · exact hkills
      · exact hafter x hx

theorem KeyLive.mem {log : List Entry} {key : ApiKey} (h : KeyLive log key) :
    ∃ pid, .issued pid key ∈ log := by
  obtain ⟨pid, after, before, rfl, -⟩ := h
  exact ⟨pid, List.mem_append_right _ List.mem_cons_self⟩

/-! ## The invariant of the keys -/

/-- **The rows of the keys**: those without a time of revocation are the live ones. -/
structure KeysAccounted (w : Directory) : Prop where
  live : ∀ key ∈ w.apiKeys, key.revokedAt = none → KeyLive w.log key
  kept : ∀ key, KeyLive w.log key → key ∈ w.apiKeys ∧ key.revokedAt = none
  distinct : (w.apiKeys.map ApiKey.id).Nodup
  hashes : ∀ key ∈ w.apiKeys, isHash key.tokenHash = true
  members : ∀ key ∈ w.apiKeys, ⟨key.createdByUserId, key.tenantId⟩ ∈ w.memberships
  drawn : (w.ids.map Prod.snd).Nodup

section

variable {w w' : Directory}

/-- An entry that does not concern keys. -/
theorem KeysAccounted.note (h : KeysAccounted w) {e : Entry}
    (hissued : ∀ pid key, e ≠ .issued pid key) (hkills : ∀ key, ¬ e.Kills key)
    (hlog : w'.log = e :: w.log) (hkeys : w'.apiKeys = w.apiKeys) (hids : w'.ids = w.ids)
    (hmembers : ∀ m ∈ w.memberships, m ∈ w'.memberships) : KeysAccounted w' where
  live key hkey hnew := by
    rw [hkeys] at hkey
    rw [hlog]
    exact keyLive_cons.mpr (.inr ⟨h.live key hkey hnew, hkills key⟩)
  kept key hlive := by
    rw [hlog] at hlive
    rw [hkeys]
    rcases keyLive_cons.mp hlive with ⟨pid, heq⟩ | ⟨hlive, -⟩
    · exact (hissued pid key heq).elim
    · exact h.kept key hlive
  distinct := by
    rw [hkeys]
    exact h.distinct
  hashes := by
    rw [hkeys]
    exact h.hashes
  members key hkey := by
    rw [hkeys] at hkey
    exact hmembers _ (h.members key hkey)
  drawn := by
    rw [hids]
    exact h.drawn

/-- Entries that do not concern keys. -/
theorem KeysAccounted.notes (h : KeysAccounted w) {es : List Entry}
    (hes : ∀ e ∈ es, (∀ pid key, e ≠ .issued pid key) ∧ ∀ key, ¬ e.Kills key)
    (hlog : w'.log = es ++ w.log) (hkeys : w'.apiKeys = w.apiKeys) (hids : w'.ids = w.ids)
    (hmembers : w'.memberships = w.memberships) : KeysAccounted w' := by
  induction es generalizing w' with
  | nil =>
      obtain ⟨clock, tenants, users, memberships, logins, sessions, apiKeys, tokens, ids,
        readings, log⟩ := w'
      obtain rfl : log = w.log := hlog
      obtain rfl : apiKeys = w.apiKeys := hkeys
      obtain rfl : ids = w.ids := hids
      obtain rfl : memberships = w.memberships := hmembers
      exact ⟨h.live, h.kept, h.distinct, h.hashes, h.members, h.drawn⟩
  | cons e es ih =>
      have hrest : KeysAccounted { w' with
          log := es ++ w.log } :=
        ih (fun x hx => hes x (List.mem_cons_of_mem _ hx)) rfl hkeys hids hmembers
      obtain ⟨hissued, hkills⟩ := hes e List.mem_cons_self
      exact hrest.note hissued hkills hlog rfl rfl fun _ hm => hm

/-- **`create`**: a new live key. -/
theorem KeysAccounted.createKey (h : KeysAccounted w) {pid : ℕ} {input : NewKey}
    (hhash : isHash input.tokenHash = true) : KeysAccounted (w.createKey pid input).2 := by
  rcases createKey_cases w pid input with ⟨e, heq⟩ | ⟨hnew, hmember, heq⟩
  · rw [heq]
    exact h
  · rw [heq]
    exact
      { live := by
          intro key hkey hnone
          rcases List.mem_cons.mp hkey with rfl | hkey
          · exact keyLive_cons.mpr (.inl ⟨pid, rfl⟩)
          · exact keyLive_cons.mpr (.inr ⟨h.live key hkey hnone, id⟩)
        kept := by
          intro key hlive
          rcases keyLive_cons.mp hlive with ⟨q, hissued⟩ | ⟨hlive, -⟩
          · obtain ⟨-, rfl⟩ := Entry.issued.inj hissued
            exact ⟨List.mem_cons_self, rfl⟩
          · exact ⟨List.mem_cons_of_mem _ (h.kept key hlive).1, (h.kept key hlive).2⟩
        distinct := by
          rw [List.map_cons, List.nodup_cons]
          refine ⟨fun hmem => ?_, h.distinct⟩
          obtain ⟨key, hkey, hid⟩ := List.mem_map.mp hmem
          exact (hnew key hkey).1 hid
        hashes := by
          intro key hkey
          rcases List.mem_cons.mp hkey with rfl | hkey
          · exact hhash
          · exact h.hashes key hkey
        members := by
          intro key hkey
          rcases List.mem_cons.mp hkey with rfl | hkey
          · exact hmember
          · exact h.members key hkey
        drawn := h.drawn }

/-- **`revoke`**: the key is not live any more, the others are as before. -/
theorem KeysAccounted.revokeKey (h : KeysAccounted w) (pid : ℕ) (tenantId id : JsString) (now : ℤ) :
    KeysAccounted (w.revokeKey pid tenantId id now).2 := by
  have hrow : ∀ key ∈ (w.revokeKey pid tenantId id now).2.apiKeys, ∃ old ∈ w.apiKeys,
      key.tokenHash = old.tokenHash ∧ key.createdByUserId = old.createdByUserId ∧
      key.tenantId = old.tenantId ∧
      (key.revokedAt = none → key = old ∧ ¬ (tenantId = key.tenantId ∧ id = key.id)) := by
    intro key hkey
    obtain ⟨old, hold, rfl⟩ := List.mem_map.mp hkey
    refine ⟨old, hold, ?_⟩
    by_cases hmatch : old.tenantId = tenantId ∧ old.id = id ∧ old.revokedAt = none
    · rw [if_pos hmatch]
      exact ⟨rfl, rfl, rfl, fun hnone => by cases hnone⟩
    · rw [if_neg hmatch]
      exact ⟨rfl, rfl, rfl, fun hnone => ⟨rfl, fun hsame =>
        hmatch ⟨hsame.1.symm, hsame.2.symm, hnone⟩⟩⟩
  exact
    { live := by
        intro key hkey hnone
        obtain ⟨old, hold, -, -, -, hsame⟩ := hrow key hkey
        obtain ⟨rfl, hother⟩ := hsame hnone
        exact keyLive_cons.mpr (.inr ⟨h.live key hold hnone, hother⟩)
      kept := by
        intro key hlive
        rcases keyLive_cons.mp hlive with ⟨q, hissued⟩ | ⟨hlive, hother⟩
        · cases hissued
        · obtain ⟨hkey, hnone⟩ := h.kept key hlive
          -- it is not the row that is revoked, so it is the same afterwards
          refine ⟨List.mem_map.mpr ⟨key, hkey, if_neg fun hmatch => hother ?_⟩, hnone⟩
          exact ⟨hmatch.1.symm, hmatch.2.1.symm⟩
      distinct := by
        have hids : (w.revokeKey pid tenantId id now).2.apiKeys.map ApiKey.id =
            w.apiKeys.map ApiKey.id := by
          show (w.apiKeys.map _).map ApiKey.id = _
          rw [List.map_map]
          apply List.map_congr_left
          intro key _
          rw [Function.comp_apply]
          split_ifs <;> rfl
        rw [hids]
        exact h.distinct
      hashes := by
        intro key hkey
        obtain ⟨old, hold, hhash, -⟩ := hrow key hkey
        rw [hhash]
        exact h.hashes old hold
      members := by
        intro key hkey
        obtain ⟨old, hold, -, huser, htenant, -⟩ := hrow key hkey
        rw [huser, htenant]
        exact h.members old hold
      drawn := h.drawn }

/-- **Revoking a membership** deletes the keys that it issued. -/
theorem KeysAccounted.removed (h : KeysAccounted w) (user tenantId : JsString) :
    KeysAccounted { w with
      memberships := w.memberships.filter (fun m => m != ⟨user, tenantId⟩)
      apiKeys := w.apiKeys.filter (fun k => !(k.createdByUserId == user && k.tenantId == tenantId))
      log := .removed ⟨user, tenantId⟩ :: w.log } := by
  have hother : ∀ key : ApiKey,
      (!(key.createdByUserId == user && key.tenantId == tenantId)) = true ↔
      ¬ (⟨user, tenantId⟩ : Membership) = ⟨key.createdByUserId, key.tenantId⟩ := by
    intro key
    simp only [Bool.not_eq_true', Bool.and_eq_false_iff, beq_eq_false_iff_ne, Membership.mk.injEq]
    constructor
    · rintro hne ⟨rfl, rfl⟩
      simp at hne
    · intro hne
      by_cases huser : key.createdByUserId = user
      · exact .inr fun htenant => hne ⟨huser.symm, htenant.symm⟩
      · exact .inl huser
  exact
    { live := by
        intro key hkey hnone
        obtain ⟨hkey, hne⟩ := List.mem_filter.mp hkey
        exact keyLive_cons.mpr (.inr ⟨h.live key hkey hnone, (hother key).mp hne⟩)
      kept := by
        intro key hlive
        rcases keyLive_cons.mp hlive with ⟨q, hissued⟩ | ⟨hlive, hne⟩
        · cases hissued
        · obtain ⟨hkey, hnone⟩ := h.kept key hlive
          exact ⟨List.mem_filter.mpr ⟨hkey, (hother key).mpr hne⟩, hnone⟩
      distinct := h.distinct.sublist (List.filter_sublist.map _)
      hashes := fun key hkey => h.hashes key (List.mem_filter.mp hkey).1
      members := by
        intro key hkey
        obtain ⟨hkey, hne⟩ := List.mem_filter.mp hkey
        refine List.mem_filter.mpr ⟨h.members key hkey, bne_iff_ne.mpr fun heq => ?_⟩
        exact (hother key).mp hne heq.symm
      drawn := h.drawn }

end

/-! ## The contract with the keys -/

section

variable {sha256 : List UInt8 → Webhook.Digest} {settings : Settings} {T : Set JsString}
  {w w' : Directory}

/-- Hashes are stored as 64 hexadecimal digits. -/
theorem isHash_tokenHash (value : JsString) : isHash (tokenHash sha256 value) = true := by
  rw [isHash, Bool.and_eq_true, beq_iff_eq]
  refine ⟨?_, Webhook.isLowerHex_hex _⟩
  rw [tokenHash, Webhook.length_hex, (sha256 _).2]

/-- Nothing changes for the keys. -/
theorem KeysAccounted.same (h : KeysAccounted w) (hlog : w'.log = w.log)
    (hkeys : w'.apiKeys = w.apiKeys) (hids : w'.ids = w.ids)
    (hmembers : w'.memberships = w.memberships) : KeysAccounted w' := by
  have hnone : ∀ e ∈ ([] : List Entry), (∀ pid key, e ≠ .issued pid key) ∧ ∀ key, ¬ e.Kills key :=
    fun _ he => by cases he
  exact h.notes hnone hlog hkeys hids hmembers

/-- **Every operation keeps the rows of the keys.** -/
theorem KeysAccounted.apply (h : KeysAccounted w) {φ : Phase} {pid : ℕ} {op : Op} (c : Choice)
    (hallow : φ.Allows sha256 op) (hpossible : w.possible c op = true) :
    KeysAccounted (w.apply pid c op).2 := by
  cases op with
  | now => exact h.same rfl rfl rfl rfl
  | newToken => exact h.same rfl rfl rfl rfl
  -- an identifier is drawn once
  | randomUUID =>
      refine { h with drawn := ?_ }
      simp only [Directory.possible, Bool.and_eq_true, Bool.not_eq_true', List.any_eq_false,
        beq_iff_eq] at hpossible
      show (c.id :: w.ids.map Prod.snd).Nodup
      rw [List.nodup_cons]
      refine ⟨fun hmem => ?_, h.drawn⟩
      obtain ⟨i, hi, heq⟩ := List.mem_map.mp hmem
      exact hpossible.2 i hi heq
  | createLogin input =>
      simp only [Directory.apply, Directory.createLogin]
      split_ifs
      · exact h
      · exact h.note (e := .begun pid input) (fun _ _ => Entry.noConfusion) (fun _ => id) rfl rfl
          rfl fun _ hm => hm
  | findLogin stateHash => exact h
  | deleteLogin stateHash browserHash now =>
      refine h.notes (fun e he => ?_) rfl rfl rfl rfl
      obtain ⟨login, -, rfl⟩ := List.mem_map.mp he
      exact ⟨fun _ _ => Entry.noConfusion, fun _ => id⟩
  | githubIdentity code codeVerifier =>
      simp only [Directory.apply]
      cases c.identity with
      | some identity => exact h
      | none =>
          exact h.note (e := .refused pid) (fun _ _ => Entry.noConfusion) (fun _ => id) rfl rfl
            rfl fun _ hm => hm
  | createSession identity session previous =>
      simp only [Directory.apply, Directory.createSession]
      cases w.upsertUser identity c.id with
      | error e => exact h
      | ok r =>
          simp only
          split_ifs
          · exact h
          · exact h.note (fun _ _ => Entry.noConfusion) (fun _ => id) rfl rfl rfl fun _ hm => hm
  | findSession tokenHash now => exact h
  | deleteSession hash =>
      exact h.note (e := .closed pid hash) (fun _ _ => Entry.noConfusion) (fun _ => id) rfl rfl
        rfl fun _ hm => hm
  -- what is stored is a hash, computed from the key that is handed out
  | createKey input =>
      cases φ with
      | free drawn ids =>
          obtain ⟨id, -, secret, -, -, hhash⟩ := hallow
          refine h.createKey ?_
          rw [hhash]
          exact isHash_tokenHash _
      | _ => exact hallow.elim
  | findKey id => exact h
  | revokeKey tenantId id now => exact h.revokeKey pid tenantId id now

/-- What the operators do keeps the keys accounted for: a membership takes its keys with it. -/
theorem KeysAccounted.surroundings (h : KeysAccounted w) {e : Surroundings}
    (hs : surroundings e w = some w') : KeysAccounted w' := by
  cases e with
  | passTime milliseconds =>
      obtain rfl := Option.some.inj hs
      exact h.same rfl rfl rfl rfl
  | grant githubId tenantId =>
      obtain ⟨user, -, hs⟩ := Option.bind_eq_some_iff.mp hs
      split_ifs at hs
      · obtain rfl := Option.some.inj hs
        refine h.note (e := .granted ⟨user.id, tenantId⟩) (fun _ _ => Entry.noConfusion)
          (fun _ => id) rfl rfl rfl fun m hm => ?_
        show m ∈ if _ then _ else _
        split_ifs
        · exact hm
        · exact List.mem_cons_of_mem _ hm
  | revoke githubId tenantId =>
      obtain ⟨user, -, hs⟩ := Option.bind_eq_some_iff.mp hs
      split_ifs at hs
      · obtain rfl := Option.some.inj hs
        exact h.removed user.id tenantId

/-- The keys, on top of the sign-in. -/
def keysExtension (sha256 : List UInt8 → Webhook.Digest) (settings : Settings) (T : Set JsString)
    (hinj : Set.InjOn (tokenHash sha256) T) :
    (signInContract sha256 settings T hinj).Extension where
  -- keys alone: what a handler does next is the sign-in's business
  Inv := KeysAccounted
  Facts _ _ _ _ := True
  Apart _ _ := True
  Ok _ _ _ _ _ := True
  Fresh _ _ := True
  begins _ _ _ _ := trivial
  surroundings hkeys hs := ⟨hkeys.surroundings hs, fun _ _ => trivial, fun _ _ _ _ => trivial⟩
  call {pid j φ op c w r w'} _ _ _ _ hkeys _ hallow _ hexec := by
    refine ⟨?_, trivial⟩
    obtain ⟨hpossible, ⟨rfl, -⟩ | ⟨rfl, -⟩⟩ := accounts_exec hexec
    · exact hkeys
    · exact hkeys.apply c hallow hpossible
  frame _ _ _ _ _ _ _ _ _ _ _ _ := trivial
  after _ _ _ := trivial
  apart_after _ _ := trivial
  apart_symm _ := trivial
  fresh_succ _ := trivial
  fresh_call _ _ _ := trivial

/-- What holds in every state that the calls reach. -/
theorem access_accounted (hinj : Set.InjOn (tokenHash sha256) T)
    {s : Pool Accounts Directory Job Reply}
    (h : Run Starts (server sha256 (.session settings)).step (Draws T) s) :
    Accounted sha256 settings T s.world ∧ KeysAccounted s.world := by
  have hstart : ∀ s, Starts s →
      ((keysExtension sha256 settings T hinj).contract).Good s := by
    intro s hs
    refine .of_empty ⟨hs.accounted, ?_⟩ ⟨hs.good.fresh, trivial⟩ hs.idle
    exact
      { live := fun key hkey => by rw [hs.apiKeys] at hkey; cases hkey
        kept := fun key hlive => by
          obtain ⟨pid, hmem⟩ := hlive.mem
          rw [hs.log] at hmem
          cases hmem
        distinct := by rw [hs.apiKeys]; exact List.nodup_nil
        hashes := fun key hkey => by rw [hs.apiKeys] at hkey; cases hkey
        members := fun key hkey => by rw [hs.apiKeys] at hkey; cases hkey
        drawn := by rw [hs.ids]; exact List.nodup_nil }
  have hpermits : ∀ s a, ((keysExtension sha256 settings T hinj).contract).Good s → Draws T s a →
      ((keysExtension sha256 settings T hinj).contract).Permits s a := by
    intro s a _ ha
    cases a with
    | spawn job => exact fun _ _ _ => ⟨trivial, trivial⟩
    | step pid c =>
        intro job op k ht
        refine ⟨?_, trivial⟩
        rintro rfl
        exact ha pid c job k rfl ht
    | _ => trivial
  exact (Contract.invariant _ hstart hpermits h).inv

end

/-! ## Calls by themselves -/

section

variable {sha256 : List UInt8 → Webhook.Digest} {settings : Settings} {T : Set JsString}
  {w w' : Directory} {pid : ℕ} {choose : Op → Choice}

/-- Reading the clock. -/
theorem run_now {α : Type} (f : ℤ → Async α) :
    accounts.run pid choose (ask .now >>= f) w = accounts.run pid choose (f w.clock) { w with
      readings := (pid, w.clock) :: w.readings } := rfl

/-- Looking something up: it is found, or the database is out of reach. -/
theorem run_look {α : Type} {o : Op} {ans : o.Res} (f : o.Res → Async α)
    (hpossible : w.possible (choose o) o = true)
    (hfault : Directory.fault (choose o) o = (choose o).fault)
    (happly : w.apply pid (choose o) o = (.ok ans, w)) :
    accounts.run pid choose (ask o >>= f) w =
      if (choose o).fault = .none then accounts.run pid choose (f ans) w
      else some (.error (.other (choose o).error), w) := by
  have hexec : accounts.exec pid o (choose o) w =
      if (choose o).fault = .none then some (.ok ans, w)
      else some (.error (.other (choose o).error), w) := by
    simp only [accounts, hpossible, hfault, happly]
    cases (choose o).fault <;> rfl
  by_cases hnone : (choose o).fault = .none
  · rw [if_pos hnone] at hexec ⊢
    exact Device.run_call hexec
  · rw [if_neg hnone] at hexec ⊢
    exact Device.run_call hexec

/-- A program that begins with `findSession`. -/
theorem run_findSession {α : Type} (hash : JsString) (now : ℤ) (f : Option Session → Async α) :
    accounts.run pid choose (ask (.findSession hash now) >>= f) w =
      if (choose (.findSession hash now)).fault = .none then
        accounts.run pid choose (f (w.findSession hash now)) w
      else some (.error (.other (choose (.findSession hash now)).error), w) :=
  run_look (o := .findSession hash now) f rfl rfl rfl

/-- A program that begins with `findKey`. -/
theorem run_findKey {α : Type} (id : JsString) (f : Option ApiKey → Async α) :
    accounts.run pid choose (ask (.findKey id) >>= f) w =
      if (choose (.findKey id)).fault = .none then
        accounts.run pid choose (f (w.apiKeys.find? (fun k => k.id == id))) w
      else some (.error (.other (choose (.findKey id)).error), w) :=
  run_look (o := .findKey id) f rfl rfl rfl

/-- Comparing hashes is comparing their texts. -/
theorem timingSafeEqual_hashes {a b : JsString} (ha : isHash a = true) (hb : isHash b = true) :
    timingSafeEqual (ofHex a) (ofHex b) = .ok (decide (a = b)) := by
  rw [isHash, Bool.and_eq_true, beq_iff_eq] at ha hb
  obtain ⟨bytes, hbytes, rfl⟩ := Webhook.exists_hex (n := 32) (by omega) ha.2
  obtain ⟨bytes', hbytes', rfl⟩ := Webhook.exists_hex (n := 32) (by omega) hb.2
  rw [Webhook.ofHex_hex, Webhook.ofHex_hex, timingSafeEqual, if_pos (by omega)]
  congr 1
  rw [Bool.eq_iff_iff, beq_iff_eq, decide_eq_true_eq]
  constructor
  · rintro rfl
    rfl
  · intro heq
    rw [← Webhook.ofHex_hex bytes, heq, Webhook.ofHex_hex]

/-- The origin and the token that a changing request needs. -/
def Proven (sha256 : List UInt8 → Webhook.Digest) (settings : Settings) (csrfToken : JsString)
    (origin token : Option JsString) : Prop :=
  origin = some settings.webOrigin ∧ ∃ t, token = some t ∧ validToken t = true ∧
    tokenHash sha256 csrfToken = tokenHash sha256 t

/-- `csrf` returns for the right origin and token, and performs nothing. -/
theorem run_csrf {current : Session} {origin token : Option JsString} {a : Unit} :
    accounts.run pid choose (csrf sha256 (.session settings) current origin token) w =
      some (.ok a, w') ↔ w' = w ∧ Proven sha256 settings current.csrfToken origin token := by
  cases token with
  | none =>
      refine iff_of_false (fun h => ?_) fun h => ?_
      · cases h
      · obtain ⟨-, -, t, ht, -⟩ := h
        cases ht
  | some token =>
      show accounts.run pid choose
        (if origin = some settings.webOrigin ∧ validToken token = true then _ else _) w = _ ↔ _
      split_ifs with horigin
      · rw [tokensEqual, timingSafeEqual_hashes (isHash_tokenHash _) (isHash_tokenHash _)]
        by_cases hsame : tokenHash sha256 current.csrfToken = tokenHash sha256 token
        · rw [decide_eq_true hsame]
          constructor
          · intro h
            obtain ⟨-, rfl⟩ := Prod.mk.inj (Option.some.inj h)
            exact ⟨rfl, horigin.1, token, rfl, horigin.2, hsame⟩
          · rintro ⟨rfl, -⟩
            rfl
        · rw [decide_eq_false hsame]
          refine iff_of_false (fun h => ?_) fun h => ?_
          · cases h
          · obtain ⟨-, -, t, ht, -, hhash⟩ := h
            obtain rfl := Option.some.inj ht
            exact hsame hhash
      · refine iff_of_false (fun h => ?_) fun h => ?_
        · cases h
        · obtain ⟨-, hweb, t, ht, hvalid, -⟩ := h
          obtain rfl := Option.some.inj ht
          exact horigin ⟨hweb, hvalid⟩

/-- The end of `session`. -/
def foundSession (found : Option Session) : Async Session :=
  match found with
  | none => refuse 401 "Session expired or revoked"
  | some current => return current

/-- `session`, of a cookie with a token. -/
theorem session_of_token {cookie : Option JsString} {token : JsString}
    (htoken : cookieToken cookie (cookieNames settings.secure).1 = some token) :
    session sha256 (.session settings) cookie = ask .now >>= fun now =>
      ask (.findSession (tokenHash sha256 token) now) >>= foundSession := by
  rw [session, enabled_session, pure_bind, htoken]
  refine congrArg (fun k => (ask .now : Async _) >>= k) (funext fun now => ?_)
  refine congrArg (fun k => (ask _ : Async _) >>= k) (funext fun found => ?_)
  cases found with
  | none => rfl
  | some current => rfl

/-- The session of a token, as the database answers. -/
theorem run_session_of_token {cookie : Option JsString} {token : JsString} {current : Session}
    (htoken : cookieToken cookie (cookieNames settings.secure).1 = some token) :
    (∃ w', accounts.run pid choose (session sha256 (.session settings) cookie) w =
      some (.ok current, w')) ↔
      (choose (.findSession (tokenHash sha256 token) w.clock)).fault = .none ∧
        w.findSession (tokenHash sha256 token) w.clock = some current := by
  let w₁ : Directory := { w with
    readings := (pid, w.clock) :: w.readings }
  have hrun : accounts.run pid choose (session sha256 (.session settings) cookie) w =
      if (choose (.findSession (tokenHash sha256 token) w.clock)).fault = .none then
        accounts.run pid choose (foundSession (w.findSession (tokenHash sha256 token) w.clock)) w₁
      else some (.error (.other (choose (.findSession (tokenHash sha256 token) w.clock)).error),
        w₁) := by
    rw [session_of_token htoken]
    exact (run_now _).trans (run_findSession _ _ _)
  rw [hrun]
  split_ifs with hfault
  · cases w.findSession (tokenHash sha256 token) w.clock with
    | none =>
        refine iff_of_false (fun h => ?_) fun h => ?_
        · obtain ⟨w', h⟩ := h
          cases h
        · cases h.2
    | some found =>
        constructor
        · rintro ⟨w', h⟩
          exact ⟨hfault, congrArg some (Except.ok.inj (Prod.mk.inj (Option.some.inj h)).1)⟩
        · rintro ⟨-, h⟩
          obtain rfl := Option.some.inj h
          exact ⟨w₁, rfl⟩
  · refine iff_of_false (fun h => ?_) fun h => ?_
    · obtain ⟨w', h⟩ := h
      cases h
    · exact hfault h.1

/-- **`session`** returns what the database has for the token of the cookie. -/
theorem run_session {cookie : Option JsString} {current : Session} :
    (∃ w', accounts.run pid choose (session sha256 (.session settings) cookie) w =
      some (.ok current, w')) ↔
      ∃ token, cookieToken cookie (cookieNames settings.secure).1 = some token ∧
        (choose (.findSession (tokenHash sha256 token) w.clock)).fault = .none ∧
        w.findSession (tokenHash sha256 token) w.clock = some current := by
  cases htoken : cookieToken cookie (cookieNames settings.secure).1 with
  | none =>
      have hrefused : accounts.run pid choose (session sha256 (.session settings) cookie) w =
          some (.error (.auth 401 (js "Sign in required")), w) := by
        rw [session, enabled_session, pure_bind, htoken]
        rfl
      rw [hrefused]
      refine iff_of_false (fun h => ?_) fun h => ?_
      · obtain ⟨w', h⟩ := h
        cases h
      · obtain ⟨token, h, -⟩ := h
        cases h
  | some token =>
      rw [run_session_of_token htoken]
      constructor
      · rintro ⟨hfault, hfound⟩
        exact ⟨token, rfl, hfault, hfound⟩
      · rintro ⟨token', ht, hfault, hfound⟩
        obtain rfl := Option.some.inj ht
        exact ⟨hfault, hfound⟩

/-! ## What the database answers -/

/-- The row of a key, where the rows that match have one key. -/
theorem find?_eq_some_of_nodup {α β : Type} {rows : List α} {p : α → Bool} {k : β} (key : α → β)
    (hnodup : (rows.map key).Nodup) (hp : ∀ x, p x = true → key x = k) {a : α} :
    rows.find? p = some a ↔ a ∈ rows ∧ p a = true := by
  constructor
  · intro h
    exact ⟨List.mem_of_find?_eq_some h, List.find?_some h⟩
  · rintro ⟨hmem, hpa⟩
    cases hfound : rows.find? p with
    | none => exact absurd hpa (List.find?_eq_none.mp hfound a hmem)
    | some b =>
        have hb := List.mem_of_find?_eq_some hfound
        have hpb := List.find?_some hfound
        have hsame : a = b :=
          List.inj_on_of_nodup_map hnodup hmem hb ((hp a hpa).trans (hp b hpb).symm)
        rw [hsame]

/-- The tenants of a user. -/
def Directory.tenantsOf (w : Directory) (userId : JsString) : List JsString :=
  (w.memberships.filter (fun m => m.userId == userId)).map Membership.tenantId

theorem Directory.mem_tenantsOf {userId tenantId : JsString} :
    tenantId ∈ w.tenantsOf userId ↔ ⟨userId, tenantId⟩ ∈ w.memberships := by
  rw [tenantsOf, List.mem_map]
  constructor
  · rintro ⟨m, hm, rfl⟩
    obtain ⟨hmem, huser⟩ := List.mem_filter.mp hm
    obtain rfl := beq_iff_eq.mp huser
    exact hmem
  · intro hm
    exact ⟨_, List.mem_filter.mpr ⟨hm, beq_self_eq_true _⟩, rfl⟩

/-- The session is live, and what the database returns is its row and its user. -/
structure Current (w : Directory) (hash : JsString) (session : AuthSession)
    (current : Session) : Prop where
  live : Live w.log session
  hash : session.tokenHash = hash
  unexpired : w.clock < session.expiresAt
  user : current.user ∈ w.users
  owner : current.user.id = session.userId
  tokenHash : current.tokenHash = session.tokenHash
  csrfToken : current.csrfToken = session.csrfToken
  expiresAt : current.expiresAt = session.expiresAt
  memberships : current.memberships = w.tenantsOf session.userId

/-- **The database finds the live sessions**, and no others. -/
theorem Accounted.findSession_iff (h : Accounted sha256 settings T w) {hash : JsString}
    {current : Session} :
    w.findSession hash w.clock = some current ↔ ∃ session, Current w hash session current := by
  have hrow : ∀ session : AuthSession,
      (session.tokenHash == hash && decide (w.clock < session.expiresAt)) = true →
        session.tokenHash = hash := by
    intro session hsession
    rw [Bool.and_eq_true, beq_iff_eq] at hsession
    exact hsession.1
  have hfind : w.findSession hash w.clock = some current ↔ ∃ session user,
      w.sessions.find? (fun s => s.tokenHash == hash && decide (w.clock < s.expiresAt)) =
        some session ∧
      w.users.find? (fun u => u.id == session.userId) = some user ∧
      current = ⟨session.tokenHash, session.csrfToken, session.expiresAt, user,
        w.tenantsOf user.id⟩ := by
    simp only [Directory.findSession, Option.bind_eq_bind, Option.bind_eq_some_iff]
    constructor
    · rintro ⟨session, hsession, user, huser, heq⟩
      exact ⟨session, user, hsession, huser, (Option.some.inj heq).symm⟩
    · rintro ⟨session, user, hsession, huser, rfl⟩
      exact ⟨session, hsession, user, huser, rfl⟩
  rw [hfind]
  constructor
  -- a row that is found is live and unexpired
  · rintro ⟨session, user, hsession, huser, rfl⟩
    obtain ⟨hmem, hmatch⟩ :=
      (find?_eq_some_of_nodup AuthSession.tokenHash h.distinct hrow).mp hsession
    rw [Bool.and_eq_true, beq_iff_eq, decide_eq_true_eq] at hmatch
    have hmatched : (user.id == session.userId) = true :=
      List.find?_some (p := fun u : User => u.id == session.userId) huser
    have howner : user.id = session.userId := beq_iff_eq.mp hmatched
    exact ⟨session,
      { live := h.live session hmem
        hash := hmatch.1
        unexpired := hmatch.2
        user := List.mem_of_find?_eq_some huser
        owner := howner
        tokenHash := rfl
        csrfToken := rfl
        expiresAt := rfl
        memberships := by rw [howner] }⟩
  -- a live session has a row, the only one with its hash
  · rintro ⟨session, hcurrent⟩
    have hmem := h.kept session hcurrent.live hcurrent.unexpired
    refine ⟨session, current.user, ?_, ?_, ?_⟩
    · refine (find?_eq_some_of_nodup AuthSession.tokenHash h.distinct hrow).mpr ⟨hmem, ?_⟩
      rw [Bool.and_eq_true, beq_iff_eq, decide_eq_true_eq]
      exact ⟨hcurrent.hash, hcurrent.unexpired⟩
    · refine (find?_eq_some_of_nodup (k := session.userId) User.id h.named
        (fun u hu => beq_iff_eq.mp hu)).mpr ⟨hcurrent.user, beq_iff_eq.mpr hcurrent.owner⟩
    · obtain ⟨hash', csrfToken, expiresAt, user, memberships⟩ := current
      obtain rfl : hash' = session.tokenHash := hcurrent.tokenHash
      obtain rfl : csrfToken = session.csrfToken := hcurrent.csrfToken
      obtain rfl : expiresAt = session.expiresAt := hcurrent.expiresAt
      have howner : user.id = session.userId := hcurrent.owner
      obtain rfl : memberships = w.tenantsOf session.userId := hcurrent.memberships
      rw [← howner]

/-- **The database finds a key** by its id; it is usable while it is live. -/
theorem KeysAccounted.findKey_iff (h : KeysAccounted w) {id : JsString} {key : ApiKey} :
    (w.apiKeys.find? (fun k => k.id == id) = some key ∧ key.revokedAt = none) ↔
      KeyLive w.log key ∧ key.id = id := by
  have hfind := find?_eq_some_of_nodup (k := id) ApiKey.id h.distinct
    (p := fun k => k.id == id) (fun k hk => beq_iff_eq.mp hk) (a := key)
  rw [hfind]
  constructor
  · rintro ⟨⟨hmem, hid⟩, hnone⟩
    exact ⟨h.live key hmem hnone, beq_iff_eq.mp hid⟩
  · rintro ⟨hlive, hid⟩
    obtain ⟨hmem, hnone⟩ := h.kept key hlive
    exact ⟨⟨hmem, beq_iff_eq.mpr hid⟩, hnone⟩

/-! ## The guard -/

/-- The methods that change nothing. -/
def safeMethods : List JsString := [js "GET", js "HEAD", js "OPTIONS"]

/-- The end of `authorize`. -/
def memberOf (current : Session) (tenantId : Option Json) : Async Session :=
  match Api.uuid? tenantId with
  | none => refuse 400 "Invalid tenant ID"
  | some tenantId =>
      if current.memberships.contains (tenantId : JsString) then return current
      else refuse 404 "Tenant not found"

/-- The last part of `authorize`. -/
theorem memberOf_eq (current : Session) (tenantId : Option Json) :
    (match Api.uuid? tenantId with
      | none => refuse 400 "Invalid tenant ID"
      | some tenantId =>
          if current.memberships.contains (tenantId : JsString) then
            (return current : Async Session)
          else refuse 404 "Tenant not found") = memberOf current tenantId := by
  unfold memberOf
  cases Api.uuid? tenantId with
  | none => rfl
  | some tenant => rfl

/-- `authorize` in three parts. -/
theorem authorize_eq (cookie : Option JsString) (tenantId : Option Json) (method : JsString)
    (origin csrfToken : Option JsString) :
    authorize sha256 (.session settings) cookie tenantId method origin csrfToken =
      session sha256 (.session settings) cookie >>= fun current =>
        if method ∈ safeMethods then memberOf current tenantId
        else csrf sha256 (.session settings) current origin csrfToken >>= fun _ =>
          memberOf current tenantId := by
  unfold authorize
  refine congrArg (fun k => session sha256 (.session settings) cookie >>= k)
    (funext fun current => ?_)
  by_cases hmethod : method ∈ safeMethods
  · have hcontains : [js "GET", js "HEAD", js "OPTIONS"].contains method = true :=
      List.contains_iff_mem.mpr hmethod
    rw [if_pos hmethod]
    exact (if_neg (not_not.mpr hcontains)).trans (memberOf_eq current tenantId)
  · have hcontains : ¬ [js "GET", js "HEAD", js "OPTIONS"].contains method = true :=
      fun h => hmethod (List.contains_iff_mem.mp h)
    rw [if_neg hmethod]
    refine (if_pos hcontains).trans ?_
    exact congrArg (fun k => csrf sha256 (.session settings) current origin csrfToken >>= k)
      (funext fun _ => memberOf_eq current tenantId)

/-- When the last part lets pass. -/
theorem run_memberOf {current : Session} {tenantId : Option Json} {a : Session} :
    accounts.run pid choose (memberOf current tenantId) w = some (.ok a, w') ↔
      a = current ∧ w' = w ∧ ∃ tenant, Api.uuid? tenantId = some tenant ∧
        tenant.1 ∈ current.memberships := by
  unfold memberOf
  cases Api.uuid? tenantId with
  | none =>
      refine iff_of_false (fun h => ?_) fun h => ?_
      · cases h
      · obtain ⟨-, -, tenant, htenant, -⟩ := h
        cases htenant
  | some tenant =>
      simp only
      split_ifs with hmember
      · constructor
        · intro h
          obtain ⟨ha, rfl⟩ := Prod.mk.inj (Option.some.inj h)
          exact ⟨(Except.ok.inj ha).symm, rfl, tenant, rfl, List.contains_iff_mem.mp hmember⟩
        · rintro ⟨rfl, rfl, -⟩
          rfl
      · refine iff_of_false (fun h => ?_) fun h => ?_
        · cases h
        · obtain ⟨-, -, tenant', htenant, hmem⟩ := h
          obtain rfl := Option.some.inj htenant
          exact hmember (List.contains_iff_mem.mpr hmem)

/-- **`authorize`**: a session, the right origin and token for a change, and a membership. -/
theorem run_authorize {cookie : Option JsString} {tenantId : Option Json} {method : JsString}
    {origin csrfToken : Option JsString} :
    (∃ a w', accounts.run pid choose
      (authorize sha256 (.session settings) cookie tenantId method origin csrfToken) w =
        some (.ok a, w')) ↔
      ∃ current, (∃ w', accounts.run pid choose (session sha256 (.session settings) cookie) w =
          some (.ok current, w')) ∧
        (method ∈ safeMethods ∨ Proven sha256 settings current.csrfToken origin csrfToken) ∧
        ∃ tenant, Api.uuid? tenantId = some tenant ∧ tenant.1 ∈ current.memberships := by
  rw [authorize_eq]
  constructor
  · rintro ⟨a, w', h⟩
    obtain ⟨current, w₁, hsession, hrest⟩ := Device.run_bind_eq_ok.mp h
    refine ⟨current, ⟨w₁, hsession⟩, ?_⟩
    split_ifs at hrest with hmethod
    · exact ⟨.inl hmethod, (run_memberOf.mp hrest).2.2⟩
    · obtain ⟨_, w₂, hcsrf, hrest⟩ := Device.run_bind_eq_ok.mp hrest
      exact ⟨.inr (run_csrf.mp hcsrf).2, (run_memberOf.mp hrest).2.2⟩
  · rintro ⟨current, ⟨w₁, hsession⟩, hproven, hmember⟩
    refine ⟨current, w₁, Device.run_bind_eq_ok.mpr ⟨current, w₁, hsession, ?_⟩⟩
    split_ifs with hmethod
    · exact run_memberOf.mpr ⟨rfl, rfl, hmember⟩
    · have hcsrf := hproven.resolve_left hmethod
      exact Device.run_bind_eq_ok.mpr
        ⟨(), w₁, run_csrf.mpr ⟨rfl, hcsrf⟩, run_memberOf.mpr ⟨rfl, rfl, hmember⟩⟩

/-- The end of `authorize` of the API keys. -/
def keyOf (key : ApiKey) (tenantId : Option Json) : Async Unit :=
  match Api.uuid? tenantId with
  | none => refuse 400 "Invalid tenant ID"
  | some tenantId =>
      if (tenantId : JsString) = key.tenantId then return ()
      else refuse 404 "Tenant not found"

/-- What is checked of a key at a time. -/
def timelyKey (sha256 : List UInt8 → Webhook.Digest) (token : JsString) (tenantId : Option Json)
    (key : ApiKey) (now : ℤ) : Async Unit :=
  if key.expiresAt ≤ now ∨ isHash key.tokenHash = false then
    refuse 401 "Invalid or expired API key"
  else
    match timingSafeEqual (ofHex (tokenHash sha256 token)) (ofHex key.tokenHash) with
    | .error error => .throw (.other error)
    | .ok false => refuse 401 "Invalid or expired API key"
    | .ok true => keyOf key tenantId

/-- What is checked of a key that was found. -/
def foundKey (sha256 : List UInt8 → Webhook.Digest) (token : JsString) (tenantId : Option Json) :
    Option ApiKey → Async Unit
  | none => refuse 401 "Invalid or expired API key"
  | some key =>
      if key.revokedAt ≠ none then refuse 401 "Invalid or expired API key"
      else ask .now >>= timelyKey sha256 token tenantId key

/-- `authorize` of a key, from its id and its token on. -/
theorem authorizeKey_eq {header token id : JsString} {tenantId : Option Json}
    (hbearer : bearer? header = some (token, id)) :
    authorizeKey sha256 header tenantId = ask (.findKey id) >>= foundKey sha256 token tenantId := by
  unfold authorizeKey
  rw [hbearer]
  refine congrArg (fun k => (ask _ : Async _) >>= k) (funext fun found => ?_)
  cases found with
  | none => rfl
  | some key =>
      refine if_congr Iff.rfl rfl ?_
      refine congrArg (fun k => (ask .now : Async _) >>= k) (funext fun now => ?_)
      refine if_congr Iff.rfl rfl ?_
      unfold keyOf
      cases timingSafeEqual (ofHex (tokenHash sha256 token)) (ofHex key.tokenHash) with
      | error e => rfl
      | ok same =>
          cases same with
          | false => rfl
          | true =>
              cases Api.uuid? tenantId with
              | none => rfl
              | some tenant => rfl

/-- When a key is one of the tenant. -/
theorem run_keyOf {key : ApiKey} {tenantId : Option Json} :
    (∃ w', accounts.run pid choose (keyOf key tenantId) w = some (.ok (), w')) ↔
      ∃ tenant, Api.uuid? tenantId = some tenant ∧ tenant.1 = key.tenantId := by
  unfold keyOf
  cases Api.uuid? tenantId with
  | none =>
      refine iff_of_false (fun h => ?_) fun h => ?_
      · obtain ⟨w', h⟩ := h
        cases h
      · obtain ⟨tenant, h, -⟩ := h
        cases h
  | some tenant =>
      simp only
      split_ifs with hsame
      · exact iff_of_true ⟨w, rfl⟩ ⟨tenant, rfl, hsame⟩
      · refine iff_of_false (fun h => ?_) fun h => ?_
        · obtain ⟨w', h⟩ := h
          cases h
        · obtain ⟨tenant', h, hsame'⟩ := h
          obtain rfl := Option.some.inj h
          exact hsame hsame'

/-- When a key that was found lets pass. -/
theorem run_timelyKey {key : ApiKey} {token : JsString} {tenantId : Option Json} {now : ℤ}
    (hhash : isHash key.tokenHash = true) :
    (∃ w', accounts.run pid choose (timelyKey sha256 token tenantId key now) w =
        some (.ok (), w')) ↔
      now < key.expiresAt ∧ key.tokenHash = tokenHash sha256 token ∧
        ∃ tenant, Api.uuid? tenantId = some tenant ∧ tenant.1 = key.tenantId := by
  unfold timelyKey
  rw [timingSafeEqual_hashes (isHash_tokenHash _) hhash]
  by_cases hexpired : key.expiresAt ≤ now
  · rw [if_pos (.inl hexpired)]
    refine iff_of_false (fun h => ?_) fun h => absurd h.1 (by omega)
    obtain ⟨w', h⟩ := h
    cases h
  · rw [if_neg (by simp [hexpired, hhash])]
    by_cases hsame : tokenHash sha256 token = key.tokenHash
    · rw [decide_eq_true hsame]
      exact run_keyOf.trans ⟨fun h => ⟨by omega, hsame.symm, h⟩, fun h => h.2.2⟩
    · rw [decide_eq_false hsame]
      refine iff_of_false (fun h => ?_) fun h => hsame h.2.1.symm
      obtain ⟨w', h⟩ := h
      cases h

/-- A key that was found is used while it is neither revoked nor expired, with its token. -/
theorem run_foundKey {key : ApiKey} {token : JsString} {tenantId : Option Json}
    (hhash : isHash key.tokenHash = true) :
    (∃ w', accounts.run pid choose (foundKey sha256 token tenantId (some key)) w =
        some (.ok (), w')) ↔
      key.revokedAt = none ∧ w.clock < key.expiresAt ∧
        key.tokenHash = tokenHash sha256 token ∧
        ∃ tenant, Api.uuid? tenantId = some tenant ∧ tenant.1 = key.tenantId := by
  by_cases hrevoked : key.revokedAt = none
  · have hprog : foundKey sha256 token tenantId (some key) =
        ask .now >>= timelyKey sha256 token tenantId key := if_neg (not_not.mpr hrevoked)
    rw [hprog]
    exact (run_timelyKey (w := { w with
      readings := (pid, w.clock) :: w.readings }) hhash).trans
      ⟨fun h => ⟨hrevoked, h⟩, fun h => h.2⟩
  · have hprog : foundKey sha256 token tenantId (some key) =
        refuse 401 "Invalid or expired API key" := if_pos hrevoked
    rw [hprog]
    refine iff_of_false (fun h => ?_) fun h => hrevoked h.1
    obtain ⟨w', h⟩ := h
    cases h

/-- **`authorize` of the API keys**: a live key of the tenant, with its token. -/
theorem run_authorizeKey (h : KeysAccounted w) {header : JsString} {tenantId : Option Json} :
    (∃ w', accounts.run pid choose (authorizeKey sha256 header tenantId) w = some (.ok (), w')) ↔
      ∃ token id key tenant, bearer? header = some (token, id) ∧
        (choose (.findKey id)).fault = .none ∧ KeyLive w.log key ∧ key.id = id ∧
        w.clock < key.expiresAt ∧ key.tokenHash = tokenHash sha256 token ∧
        Api.uuid? tenantId = some tenant ∧ tenant.1 = key.tenantId := by
  cases hbearer : bearer? header with
  | none =>
      have hrefused : authorizeKey sha256 header tenantId = refuse 401 "Invalid API key" := by
        unfold authorizeKey
        rw [hbearer]
      rw [hrefused]
      refine iff_of_false (fun h => ?_) fun h => ?_
      · obtain ⟨w', h⟩ := h
        cases h
      · obtain ⟨token, id, key, tenant, h, -⟩ := h
        cases h
  | some b =>
      obtain ⟨token, id⟩ := b
      rw [authorizeKey_eq hbearer]
      have hrun : accounts.run pid choose (ask (.findKey id) >>= foundKey sha256 token tenantId) w =
          _ := run_findKey id (foundKey sha256 token tenantId)
      constructor
      -- the check passed, so each of its branches was the good one
      · rintro ⟨w', hpass⟩
        have hpass' := hrun.symm.trans hpass
        split_ifs at hpass' with hfault
        · cases hfound : w.apiKeys.find? (fun k => k.id == id) with
          | none => rw [hfound] at hpass'; cases hpass'
          | some key =>
              rw [hfound] at hpass'
              have hhash := h.hashes key (List.mem_of_find?_eq_some hfound)
              obtain ⟨hnone, hclock, hsame, tenant, htenant, hkey⟩ :=
                (run_foundKey hhash).mp ⟨w', hpass'⟩
              obtain ⟨hlive, hid⟩ := h.findKey_iff.mp ⟨hfound, hnone⟩
              exact ⟨token, id, key, tenant, rfl, hfault, hlive, hid, hclock, hsame, htenant, hkey⟩
        · cases hpass'
      · rintro ⟨token', id', key, tenant, hb, hfault, hlive, hid, hclock, hsame, htenant, hkey⟩
        obtain ⟨rfl, rfl⟩ := Prod.mk.inj (Option.some.inj hb)
        obtain ⟨hfound, hnone⟩ := h.findKey_iff.mpr ⟨hlive, hid⟩
        have hhash := h.hashes key (List.mem_of_find?_eq_some hfound)
        obtain ⟨w', hpass⟩ : ∃ w', accounts.run pid choose
            (foundKey sha256 token tenantId (some key)) w = some (.ok (), w') :=
          (run_foundKey hhash).mpr ⟨hnone, hclock, hsame, tenant, htenant, hkey⟩
        refine ⟨w', hrun.trans ?_⟩
        rw [if_pos hfault, hfound]
        exact hpass

end

section

variable (sha256 : List UInt8 → Webhook.Digest) (settings : Settings) (w : Directory)

/-- The cookie is of a live session whose user is a member of the tenant; a request that changes
something comes from the web origin, with the token of the session. -/
def BySession (cookie : Option JsString) (tenantId : Option Json) (method : JsString)
    (origin csrfToken : Option JsString) : Prop :=
  ∃ token session tenant, cookieToken cookie (cookieNames settings.secure).1 = some token ∧
    Live w.log session ∧ session.tokenHash = tokenHash sha256 token ∧
    w.clock < session.expiresAt ∧
    (method ∈ safeMethods ∨ Proven sha256 settings session.csrfToken origin csrfToken) ∧
    Api.uuid? tenantId = some tenant ∧ ⟨session.userId, tenant.1⟩ ∈ w.memberships

/-- The header is of a live key of the tenant. -/
def ByKey (header : JsString) (tenantId : Option Json) : Prop :=
  ∃ token id key tenant, bearer? header = some (token, id) ∧ KeyLive w.log key ∧ key.id = id ∧
    w.clock < key.expiresAt ∧ key.tokenHash = tokenHash sha256 token ∧
    Api.uuid? tenantId = some tenant ∧ tenant.1 = key.tenantId

/-- **Who may act for a tenant.** -/
def Granted (req : Request) : Prop :=
  match req.authorization, req.route with
  | none, .events tenantId =>
      BySession sha256 settings w req.cookie tenantId req.method req.origin req.csrfToken
  | none, .tenant tenantId =>
      BySession sha256 settings w req.cookie (some (.str tenantId)) req.method req.origin
        req.csrfToken
  | some header, .events tenantId => ByKey sha256 w header tenantId
  | some _, .tenant _ => False

/-- The guard calls the next handler. -/
def Passes (pid : ℕ) (choose : Op → Choice) (req : Request) : Prop :=
  ∃ w', accounts.run pid choose (guard sha256 (.session settings) req) w = some (.ok (), w')

end

section

variable {sha256 : List UInt8 → Webhook.Digest} {settings : Settings} {T : Set JsString}
  {w w' : Directory} {pid : ℕ} {choose : Op → Choice}

/-- Who passes has a live session of a member. -/
theorem bySession_of_authorize (h : Accounted sha256 settings T w) {cookie : Option JsString}
    {tenantId : Option Json} {method : JsString} {origin csrfToken : Option JsString}
    (hpass : ∃ a w', accounts.run pid choose
      (authorize sha256 (.session settings) cookie tenantId method origin csrfToken) w =
        some (.ok a, w')) :
    BySession sha256 settings w cookie tenantId method origin csrfToken := by
  obtain ⟨current, hsession, hproven, tenant, htenant, hmember⟩ := run_authorize.mp hpass
  obtain ⟨token, htoken, -, hfound⟩ := run_session.mp hsession
  obtain ⟨session, hcurrent⟩ := h.findSession_iff.mp hfound
  rw [hcurrent.csrfToken] at hproven
  rw [hcurrent.memberships, Directory.mem_tenantsOf] at hmember
  exact ⟨token, session, tenant, htoken, hcurrent.live, hcurrent.hash, hcurrent.unexpired,
    hproven, htenant, hmember⟩

/-- Who has one passes, if the database answers. -/
theorem authorize_of_bySession (h : Accounted sha256 settings T w)
    (hreach : ∀ o, (choose o).fault = .none) {cookie : Option JsString}
    {tenantId : Option Json} {method : JsString} {origin csrfToken : Option JsString}
    (hgrant : BySession sha256 settings w cookie tenantId method origin csrfToken) :
    ∃ a w', accounts.run pid choose
      (authorize sha256 (.session settings) cookie tenantId method origin csrfToken) w =
        some (.ok a, w') := by
  obtain ⟨token, session, tenant, htoken, hlive, hhash, hclock, hproven, htenant, hmember⟩ := hgrant
  obtain ⟨user, huser, howner⟩ := h.owned session (h.kept session hlive hclock)
  let current : Session := ⟨session.tokenHash, session.csrfToken, session.expiresAt, user,
    w.tenantsOf session.userId⟩
  have hcurrent : Current w (tokenHash sha256 token) session current :=
    ⟨hlive, hhash, hclock, huser, howner, rfl, rfl, rfl, rfl⟩
  have hfound := h.findSession_iff.mpr ⟨session, hcurrent⟩
  exact run_authorize.mpr ⟨current, run_session.mpr ⟨token, htoken, hreach _, hfound⟩, hproven,
    tenant, htenant, Directory.mem_tenantsOf.mpr hmember⟩

/-- The guard returns where `authorize` does. -/
theorem run_guard_session {cookie : Option JsString} {tenantId : Option Json} {method : JsString}
    {origin csrfToken : Option JsString} :
    (∃ w', accounts.run pid choose
      (authorize sha256 (.session settings) cookie tenantId method origin csrfToken >>=
        fun _ => return ()) w = some (.ok (), w')) ↔
      ∃ a w', accounts.run pid choose
        (authorize sha256 (.session settings) cookie tenantId method origin csrfToken) w =
          some (.ok a, w') := by
  constructor
  · rintro ⟨w', h⟩
    obtain ⟨a, w₁, ha, -⟩ := Device.run_bind_eq_ok.mp h
    exact ⟨a, w₁, ha⟩
  · rintro ⟨a, w', ha⟩
    exact ⟨w', Device.run_bind_eq_ok.mpr ⟨a, w', ha, rfl⟩⟩

/-- **Who passes the guard.**  In every state that the calls reach, a request passes only if it is
granted, whatever the database does; and if the database answers, it passes then. -/
theorem guard_passes_iff (hinj : Set.InjOn (tokenHash sha256) T)
    {s : Pool Accounts Directory Job Reply}
    (h : Run Starts (server sha256 (.session settings)).step (Draws T) s) (pid : ℕ)
    (choose : Op → Choice) (req : Request) :
    (Passes sha256 settings s.world pid choose req → Granted sha256 settings s.world req) ∧
      ((∀ o, (choose o).fault = .none) → Granted sha256 settings s.world req →
        Passes sha256 settings s.world pid choose req) := by
  obtain ⟨hinv, hkeys⟩ := access_accounted hinj h
  obtain ⟨route, method, authorization, cookie, origin, csrfToken⟩ := req
  cases authorization with
  -- without a header the session decides, on both routes
  | none =>
      cases route with
      | events tenantId =>
          exact ⟨fun hpass => bySession_of_authorize hinv (run_guard_session.mp hpass),
            fun hreach hgrant =>
              run_guard_session.mpr (authorize_of_bySession hinv hreach hgrant)⟩
      | tenant tenantId =>
          exact ⟨fun hpass => bySession_of_authorize hinv (run_guard_session.mp hpass),
            fun hreach hgrant =>
              run_guard_session.mpr (authorize_of_bySession hinv hreach hgrant)⟩
  | some header =>
      cases route with
      -- a key opens the ingest route
      | events tenantId =>
          constructor
          · intro hpass
            obtain ⟨token, id, key, tenant, hbearer, -, hlive, hid, hclock, hhash, htenant,
              hsame⟩ := (run_authorizeKey hkeys).mp hpass
            exact ⟨token, id, key, tenant, hbearer, hlive, hid, hclock, hhash, htenant, hsame⟩
          · intro hreach hgrant
            obtain ⟨token, id, key, tenant, hbearer, hlive, hid, hclock, hhash, htenant,
              hsame⟩ := hgrant
            exact (run_authorizeKey hkeys).mpr ⟨token, id, key, tenant, hbearer, hreach _, hlive,
              hid, hclock, hhash, htenant, hsame⟩
      -- and no other
      | tenant tenantId =>
          refine ⟨fun hpass => ?_, fun _ hgrant => hgrant.elim⟩
          obtain ⟨w', hpass⟩ := hpass
          cases hpass

/-! ## Refused for ever -/

/-- Later: more was done, and time has passed. -/
structure Later (w w' : Directory) : Prop where
  log : ∃ es, w'.log = es ++ w.log
  clock : w.clock ≤ w'.clock

theorem Later.refl (w : Directory) : Later w w := ⟨⟨[], rfl⟩, le_rfl⟩

theorem Later.trans {w₁ w₂ w₃ : Directory} (h : Later w₁ w₂) (h' : Later w₂ w₃) : Later w₁ w₃ := by
  obtain ⟨es, hes⟩ := h.log
  obtain ⟨es', hes'⟩ := h'.log
  exact ⟨⟨es' ++ es, by rw [hes', hes, List.append_assoc]⟩, h.clock.trans h'.clock⟩

/-- Nothing is taken from the history. -/
theorem apply_later (w : Directory) (pid : ℕ) (c : Choice) (op : Op) :
    Later w (w.apply pid c op).2 := by
  cases op with
  | now => exact ⟨⟨[], rfl⟩, le_rfl⟩
  | newToken => exact ⟨⟨[], rfl⟩, le_rfl⟩
  | randomUUID => exact ⟨⟨[], rfl⟩, le_rfl⟩
  | createLogin input =>
      simp only [Directory.apply, Directory.createLogin]
      split_ifs
      · exact .refl w
      · exact ⟨⟨[_], rfl⟩, le_rfl⟩
  | findLogin stateHash => exact .refl w
  | deleteLogin stateHash browserHash now => exact ⟨⟨_, rfl⟩, le_rfl⟩
  | githubIdentity code codeVerifier =>
      simp only [Directory.apply]
      cases c.identity with
      | some identity => exact .refl w
      | none => exact ⟨⟨[_], rfl⟩, le_rfl⟩
  | createSession identity session previous =>
      simp only [Directory.apply, Directory.createSession]
      cases w.upsertUser identity c.id with
      | error e => exact .refl w
      | ok r =>
          simp only
          split_ifs
          · exact .refl w
          · exact ⟨⟨[_], rfl⟩, le_rfl⟩
  | findSession tokenHash now => exact .refl w
  | deleteSession hash => exact ⟨⟨[_], rfl⟩, le_rfl⟩
  | createKey input =>
      rcases createKey_cases w pid input with ⟨e, heq⟩ | ⟨-, -, heq⟩
      · simp only [Directory.apply, heq]
        exact .refl w
      · simp only [Directory.apply, heq]
        exact ⟨⟨[_], rfl⟩, le_rfl⟩
  | findKey id => exact .refl w
  | revokeKey tenantId id now => exact ⟨⟨[_], rfl⟩, le_rfl⟩

/-- What the operators do makes a later state. -/
theorem surroundings_later {e : Surroundings} (h : surroundings e w = some w') : Later w w' := by
  cases e with
  | passTime milliseconds =>
      obtain rfl := Option.some.inj h
      refine ⟨⟨[], rfl⟩, ?_⟩
      show w.clock ≤ w.clock + milliseconds
      omega
  | grant githubId tenantId =>
      obtain ⟨user, -, h⟩ := Option.bind_eq_some_iff.mp h
      split_ifs at h
      · obtain rfl := Option.some.inj h
        exact ⟨⟨[_], rfl⟩, le_rfl⟩
  | revoke githubId tenantId =>
      obtain ⟨user, -, h⟩ := Option.bind_eq_some_iff.mp h
      split_ifs at h
      · obtain rfl := Option.some.inj h
        exact ⟨⟨[_], rfl⟩, le_rfl⟩

/-- Every step of the pool leads to a later state. -/
theorem step_later {s s' : Pool Accounts Directory Job Reply}
    {a : PoolAction Choice Job Surroundings}
    (h : (server sha256 (.session settings)).step s a = some s') : Later s.world s'.world := by
  cases a with
  | surroundings e =>
      rw [Machine.step, Option.map_eq_some_iff] at h
      obtain ⟨w', hw', rfl⟩ := h
      exact surroundings_later hw'
  | spawn job =>
      rw [Machine.step, Option.map_eq_some_iff] at h
      obtain ⟨p, -, rfl⟩ := h
      exact .refl _
  | step pid c =>
      obtain ⟨j, op, k, r, w', -, hexec, rfl⟩ := Machine.step_call h
      obtain ⟨-, ⟨rfl, -⟩ | ⟨rfl, -⟩⟩ := accounts_exec hexec
      · exact .refl _
      · exact apply_later s.world pid c op
  | finish pid =>
      obtain ⟨j, e, -, rfl⟩ | ⟨j, a, -, rfl⟩ := Machine.step_finish h
      · exact .refl _
      · exact .refl _
  | crash pid =>
      rw [Machine.step, Option.map_eq_some_iff] at h
      obtain ⟨t, -, rfl⟩ := h
      exact .refl _

/-- An entry of the older part: what came after it, and what came before. -/
theorem split_of_append {α : Type} {es log after before : List α} {e : α}
    (h : es ++ log = after ++ e :: before) (he : e ∉ es) :
    ∃ rest, after = es ++ rest ∧ log = rest ++ e :: before := by
  rcases List.append_eq_append_iff.mp h with ⟨rest, hafter, hlog⟩ | ⟨rest, hes, hlog⟩
  · exact ⟨rest, hafter, hlog⟩
  · cases rest with
    | nil => exact ⟨[], by rw [hes, List.append_nil, List.append_nil], hlog.symm⟩
    | cons x rest =>
        obtain ⟨rfl, -⟩ := List.cons.inj hlog
        exact absurd (by rw [hes]; exact List.mem_append_right _ List.mem_cons_self) he

/-- What a call did first is not in the newer part, if the older part has an entry of the call
which is not among what it did before. -/
theorem Later.first_notMem {es : List Entry} (hes : w'.log = es ++ w.log) {q : ℕ} {e x : Entry}
    {rest : List Entry} (hown : w'.of q = e :: rest) (hpid : e.pid? = some q) (hx : x ∈ w.log)
    (hxpid : x.pid? = some q) (hnot : x ∉ rest) : e ∉ es := by
  intro hmem
  have hsplit : es.filter (fun e => e.pid? == some q) ++ w.of q = e :: rest := by
    rw [← hown, Directory.of, Directory.of, hes, List.filter_append]
  have hfirst : e ∈ es.filter (fun e => e.pid? == some q) :=
    List.mem_filter.mpr ⟨hmem, by rw [hpid, beq_self_eq_true]⟩
  cases hfilter : es.filter (fun e => e.pid? == some q) with
  | nil =>
      rw [hfilter] at hfirst
      cases hfirst
  | cons y ys =>
      rw [hfilter] at hsplit
      obtain ⟨-, hrest⟩ := List.cons.inj hsplit
      apply hnot
      rw [← hrest]
      exact List.mem_append_right _ (Directory.mem_of.mpr ⟨hx, hxpid⟩)

/-- A session of the past that is live now was live then. -/
theorem Live.of_later (hinv : Accounted sha256 settings T w')
    (hinj : Set.InjOn (tokenHash sha256) T) (hlater : Later w w') {p : ℕ} {old : AuthSession}
    {previous : Option JsString} (hopened : .opened p old previous ∈ w.log)
    {session : AuthSession} (hhash : session.tokenHash = old.tokenHash)
    (hlive : Live w'.log session) : Live w.log session := by
  obtain ⟨es, hes⟩ := hlater.log
  obtain ⟨q, previous', after, before, hlog, hafter⟩ := hlive
  have hmem : .opened q session previous' ∈ w'.log := by
    rw [hlog]
    exact List.mem_append_right _ List.mem_cons_self
  have hold : .opened p old previous ∈ w'.log := by
    rw [hes]
    exact List.mem_append_right _ hopened
  obtain ⟨rfl, rfl⟩ := hinv.session_unique hinj hmem hold hhash
  -- the call opened one session only, so its entry is in the older part
  obtain ⟨login, now, token, hown, -⟩ := hinv.of_opened hmem
  have hnew : Entry.opened q session previous' ∉ es :=
    Later.first_notMem hes hown rfl hopened rfl (by simp)
  obtain ⟨rest, hrest, hlog'⟩ := split_of_append (hes.symm.trans hlog) hnew
  refine ⟨q, previous', rest, before, hlog', fun e he => hafter e ?_⟩
  rw [hrest]
  exact List.mem_append_right _ he

/-- **Keys have different ids.** -/
theorem key_unique (hinv : Accounted sha256 settings T w) (hkeys : KeysAccounted w) {p q : ℕ}
    {key key' : ApiKey} (hp : .issued p key ∈ w.log) (hq : .issued q key' ∈ w.log)
    (hid : key.id = key'.id) : p = q ∧ key = key' ∧ w.of p = [.issued p key] := by
  obtain ⟨job, hcourse⟩ := hinv.courses p
  obtain ⟨job', hcourse'⟩ := hinv.courses q
  obtain ⟨hown, hdrawn⟩ := hcourse.of_issued (Directory.mem_of.mpr ⟨hp, rfl⟩)
  obtain ⟨hown', hdrawn'⟩ := hcourse'.of_issued (Directory.mem_of.mpr ⟨hq, rfl⟩)
  rw [← hid] at hdrawn'
  obtain rfl : p = q := (Prod.mk.inj (List.inj_on_of_nodup_map hkeys.drawn hdrawn hdrawn' rfl)).1
  have hsame := hown.symm.trans hown'
  exact ⟨rfl, (Entry.issued.inj (List.cons.inj hsame).1).2, hown⟩

/-- A key of the past that is live now was live then. -/
theorem KeyLive.of_later (hinv : Accounted sha256 settings T w') (hkeys : KeysAccounted w')
    (hlater : Later w w') {p : ℕ} {old : ApiKey} (hissued : .issued p old ∈ w.log)
    {key : ApiKey} (hid : key.id = old.id) (hlive : KeyLive w'.log key) : KeyLive w.log key := by
  obtain ⟨es, hes⟩ := hlater.log
  obtain ⟨q, after, before, hlog, hafter⟩ := hlive
  have hmem : .issued q key ∈ w'.log := by
    rw [hlog]
    exact List.mem_append_right _ List.mem_cons_self
  have hold : .issued p old ∈ w'.log := by
    rw [hes]
    exact List.mem_append_right _ hissued
  obtain ⟨rfl, rfl, hown⟩ := key_unique hinv hkeys hmem hold hid
  have hnew : Entry.issued q key ∉ es :=
    Later.first_notMem hes hown rfl hissued rfl List.not_mem_nil
  obtain ⟨rest, hrest, hlog'⟩ := split_of_append (hes.symm.trans hlog) hnew
  refine ⟨q, rest, before, hlog', fun e he => hafter e ?_⟩
  rw [hrest]
  exact List.mem_append_right _ he

/-- **What was refused once is refused ever after.**  In a run that goes on from `s` to `s'`: if
the cookie of a session that had been opened was refused in `s` although the database answered,
then it is refused in `s'`; and so is the header with a key that had been issued, even if the
membership was granted again. -/
theorem credentials_not_revived (hinj : Set.InjOn (tokenHash sha256) T)
    {s s' : Pool Accounts Directory Job Reply}
    (h : Run Starts (server sha256 (.session settings)).step (Draws T) s)
    (h' : Run (fun x => x = s) (server sha256 (.session settings)).step (Draws T) s')
    (pid pid' : ℕ) (choose choose' : Op → Choice) (hreach : ∀ o, (choose o).fault = .none) :
    (∀ cookie token, cookieToken cookie (cookieNames settings.secure).1 = some token →
      (∃ p session previous, .opened p session previous ∈ s.world.log ∧
        session.tokenHash = tokenHash sha256 token) →
      (¬ ∃ current w₁, accounts.run pid choose (session sha256 (.session settings) cookie)
        s.world = some (.ok current, w₁)) →
      ¬ ∃ current w₁, accounts.run pid' choose' (session sha256 (.session settings) cookie)
        s'.world = some (.ok current, w₁)) ∧
    (∀ req header token id, req.authorization = some header →
      bearer? header = some (token, id) →
      (∃ p key, .issued p key ∈ s.world.log ∧ key.id = id) →
      ¬ Passes sha256 settings s.world pid choose req →
      ¬ Passes sha256 settings s'.world pid' choose' req) := by
  have hlater : Later s.world s'.world :=
    h'.invariant (I := fun x => Later s.world x.world) (fun _ hs => by rw [hs]; exact .refl _)
      fun _ _ _ hgo _ hstep => hgo.trans (step_later hstep)
  obtain ⟨hinv, hkeys⟩ := access_accounted hinj h
  obtain ⟨hinv', hkeys'⟩ := access_accounted hinj (h.append h')
  constructor
  -- a session that is found later is live now, and was unexpired
  · rintro cookie token htoken ⟨p, old, previous, hopened, hold⟩ hrefused ⟨current, hpass⟩
    apply hrefused
    obtain ⟨token', htoken', -, hfound⟩ := run_session.mp hpass
    obtain rfl := Option.some.inj (htoken.symm.trans htoken')
    obtain ⟨session, hcurrent⟩ := hinv'.findSession_iff.mp hfound
    have hlive : Live s.world.log session :=
      Live.of_later hinv' hinj hlater hopened (hcurrent.hash.trans hold.symm) hcurrent.live
    have hclock : s.world.clock < session.expiresAt :=
      lt_of_le_of_lt hlater.clock hcurrent.unexpired
    obtain ⟨user, huser, howner⟩ := hinv.owned session (hinv.kept session hlive hclock)
    have hnow : Current s.world (tokenHash sha256 token) session
        ⟨session.tokenHash, session.csrfToken, session.expiresAt, user,
          s.world.tenantsOf session.userId⟩ :=
      ⟨hlive, hcurrent.hash, hclock, huser, howner, rfl, rfl, rfl, rfl⟩
    exact ⟨_, run_session.mpr ⟨token, htoken, hreach _, hinv.findSession_iff.mpr ⟨session, hnow⟩⟩⟩
  -- a key that passes later has been live all the time
  · rintro req header token id hheader hbearer ⟨p, old, hissued, hold⟩ hrefused hpass
    apply hrefused
    have hgrant := (guard_passes_iff hinj (h.append h') pid' choose' req).1 hpass
    refine (guard_passes_iff hinj h pid choose req).2 hreach ?_
    unfold Granted at hgrant ⊢
    rw [hheader] at hgrant ⊢
    cases hroute : req.route with
    | tenant tenantId =>
        rw [hroute] at hgrant
        exact hgrant
    | events tenantId =>
        rw [hroute] at hgrant
        obtain ⟨token', id', key, tenant, hb, hlive, hid, hclock, hhash, htenant, hsame⟩ := hgrant
        obtain ⟨rfl, rfl⟩ := Prod.mk.inj (Option.some.inj (hbearer.symm.trans hb))
        have hlive' : KeyLive s.world.log key :=
          KeyLive.of_later hinv' hkeys' hlater hissued (hid.trans hold.symm) hlive
        exact ⟨token, id, key, tenant, hbearer, hlive', hid, lt_of_le_of_lt hlater.clock hclock,
          hhash, htenant, hsame⟩

end

namespace Sample

/-- The tenant of the sample. -/
def tenantId : JsString := js "22222222-2222-4222-8222-222222222222"

/-- A sign-in, after which the user is made a member of the tenant. -/
def memberRun : List (PoolAction Choice Job Surroundings) :=
  signInRun ++ [.surroundings (.grant (js "7") tenantId)]

/-- The cookie of the session. -/
def cookie : JsString := js "waybill-session=" ++ letters 68

/-- The user logs out, with the token of the session. -/
def logoutRun : List (PoolAction Choice Job Surroundings) :=
  [.spawn (.logout (some cookie) (some settings.webOrigin) (some (letters 69))), op 2, op 2, op 2]

/-- One tenant, and nobody signed in. -/
def tenantPool : Pool Accounts Directory Job Reply :=
  { idle with world := { directory with tenants := [tenantId] } }

theorem tenantPool_starts : Starts tenantPool where
  log := rfl
  logins := rfl
  sessions := rfl
  apiKeys := rfl
  tokens := rfl
  ids := rfl
  named := List.nodup_nil
  idle _ := rfl

/-- `GET /tenants/:tenantId/…` with the cookie. -/
def request : Request :=
  { route := .tenant tenantId, method := js "GET", authorization := none
    cookie := some cookie, origin := none, csrfToken := none }

/-- The guard returns. -/
def passes (s : Pool Accounts Directory Job Reply) : Bool :=
  match accounts.run 9 (fun _ => {}) (guard sha256 (.session settings) request) s.world with
  | some (.ok _, _) => true
  | _ => false

end Sample

/-- A member passes, and is granted. -/
theorem guard_passes_member : ∃ s, Sample.passes s = true ∧
    Granted Sample.sha256 Sample.settings s.world Sample.request := by
  have hplayed : (Run.play (server Sample.sha256 (.session Sample.settings)).step Sample.drawn
      Sample.memberRun Sample.tenantPool).any Sample.passes = true := by decide +kernel
  have hplay : ∃ s, Run Starts (server Sample.sha256 (.session Sample.settings)).step
      (Draws {t | t ∈ Sample.tokens}) s ∧ Sample.passes s = true :=
    Run.exists_of_play Sample.drawn_draws Sample.tenantPool_starts hplayed
  obtain ⟨s, hs, htest⟩ := hplay
  refine ⟨s, htest, (guard_passes_iff Sample.tokens_injOn hs 9 (fun _ => {}) _).1 ?_⟩
  unfold Sample.passes at htest
  split at htest
  · next a w' hrun => exact ⟨w', hrun⟩
  · cases htest

namespace Sample

/-- The cookie of an opened session is refused. -/
def loggedOut (s : Pool Accounts Directory Job Reply) : Bool :=
  (match accounts.run 9 (fun _ => {}) (session sha256 (.session settings) (some cookie))
      s.world with
    | some (.ok _, _) => false
    | _ => true) &&
  s.world.log.any (fun e =>
    match e with
    | .opened _ session _ => session.tokenHash == tokenHash sha256 (letters 68)
    | _ => false)

theorem opened_of_loggedOut {s : Pool Accounts Directory Job Reply} (h : loggedOut s = true) :
    ∃ p session previous, .opened p session previous ∈ s.world.log ∧
      session.tokenHash = tokenHash sha256 (letters 68) := by
  rw [loggedOut, Bool.and_eq_true] at h
  obtain ⟨e, he, hmatch⟩ := List.any_eq_true.mp h.2
  cases e with
  | opened p session previous => exact ⟨p, session, previous, he, beq_iff_eq.mp hmatch⟩
  | _ => cases hmatch

theorem refused_of_loggedOut {s : Pool Accounts Directory Job Reply} (h : loggedOut s = true) :
    ¬ ∃ current w₁, accounts.run 9 (fun _ => {}) (session sha256 (.session settings) (some cookie))
      s.world = some (.ok current, w₁) := by
  rintro ⟨current, w₁, hrun⟩
  rw [loggedOut, hrun] at h
  cases h

end Sample

/-- After a logout the cookie is refused, also later. -/
theorem credentials_not_revived_logout : ∃ s s' : Pool Accounts Directory Job Reply,
    Sample.loggedOut s = true ∧ s.world.clock < s'.world.clock ∧
    ¬ ∃ current w₁, accounts.run 9 (fun _ => {})
      (session Sample.sha256 (.session Sample.settings) (some Sample.cookie)) s'.world =
        some (.ok current, w₁) := by
  have hplayed : (Run.play (server Sample.sha256 (.session Sample.settings)).step Sample.drawn
      (Sample.signInRun ++ Sample.logoutRun) Sample.idle).any Sample.loggedOut = true := by
    decide +kernel
  have hplay : ∃ s, Run Starts (server Sample.sha256 (.session Sample.settings)).step
      (Draws {t | t ∈ Sample.tokens}) s ∧ Sample.loggedOut s = true :=
    Run.exists_of_play Sample.drawn_draws Sample.idle_starts hplayed
  obtain ⟨s, hs, htest⟩ := hplay
  let later : Pool Accounts Directory Job Reply := { s with
    world := { s.world with
      clock := s.world.clock + (1000 : ℕ) } }
  have hlater : Run (fun x => x = s) (server Sample.sha256 (.session Sample.settings)).step
      (Draws {t | t ∈ Sample.tokens}) later :=
    .next (a := .surroundings (.passTime 1000)) (.init rfl) (fun _ _ _ _ h => by cases h) rfl
  have hclock : s.world.clock < later.world.clock := by
    show s.world.clock < s.world.clock + (1000 : ℕ)
    omega
  exact ⟨s, later, htest, hclock,
    (credentials_not_revived Sample.tokens_injOn hs hlater 9 9 (fun _ => {}) (fun _ => {})
      fun _ => rfl).1 (some Sample.cookie) (Sample.letters 68) (by decide)
      (Sample.opened_of_loggedOut htest) (Sample.refused_of_loggedOut htest)⟩

end Identity
