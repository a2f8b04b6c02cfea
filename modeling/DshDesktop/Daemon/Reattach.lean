import DshDesktop.Daemon.BootstrapCredential

/-!
# Re-attaching to a surviving daemon

A connection that ends before a poll has seen it is never served, and a call that could not
send a reply returns early; both leave a used token in the file.
-/

namespace DshDesktop.Daemon.Bootstrap
open Option Function Runs
open Transport (Store Credential Authentication isValidFormat)

def Serving.idle : Serving → Bool
  | unserved | returned _ => true
  | _ => false

def MainLoop.hasMaintained : MainLoop → Bool
  | maintained _ => true
  | _ => false

namespace System

def Quiet (s : System) : Prop :=
  ∀ a ∈ s.credentials.store.authenticated,
    s.worker a.connection = .closed ∧ (s.serving a.connection).idle = true

def Accepted (s : System) (now : ℕ) : Prop :=
  ∃ f ∈ s.credentials.file, s.credentials.accepts f.token now = true

def Lost (s : System) (id : ℕ) : Prop :=
  s.worker id = .closed ∧ (s.serving id = .unserved ∨ s.serving id = .returned false)

def NoneLost (s : System) : Prop :=
  ∀ f ∈ s.credentials.file, ∀ a ∈ s.credentials.store.authenticated,
    a.token = f.token → ¬ s.Lost a.connection

def Unexpired (s : System) (now : ℕ) : Prop :=
  ∀ f ∈ s.credentials.file, now < f.expiresAt

/-- A condition for whenever `maintain_bootstrap_credential` returns to a daemon
that nobody is attached to. -/
def AtRest (P : System → ℕ → Prop) (s : System) : Event → Prop
  | .finish now => s.main.hasMaintained = true → s.Quiet → P s now
  | _ => True

end System

variable {now : ℕ} {m : MainLoop}

section
variable {s s' : System}

theorem accepted_of_unexpired (h : Books s) (htime : s.credentials.latest ≤ now)
    (hbt : s.credentials.file ≠ none) (hqt : s.Quiet) (hlost : s.NoneLost)
    (hlv : s.Unexpired now) : s.Accepted now := by
  obtain ⟨f, hf⟩ := ne_none_iff_exists'.mp hbt
  have hiss := h.backed.file f hf
  refine ⟨f, hf, accepts_eq_true.mpr ?_⟩
  rcases h.backed.kept _ hiss with hen | ⟨a, ha, htk⟩ | hexp
  · exact Transport.Registry.authenticate_of_lookup
      (h.backed.wellFormed _ (List.mem_map_of_mem hiss)) hen (hlv f hf) rfl
  · -- a connection used it, so its call replaced the file
    obtain ⟨hsh, hil⟩ := hqt a ha
    have hret : s.serving a.connection = .returned true := by
      have hnot := hlost f hf a ha htk
      cases hs : s.serving a.connection with
      | unserved => exact absurd ⟨hsh, .inl hs⟩ hnot
      | returned reissued =>
        cases reissued with
        | false => exact absurd ⟨hsh, .inr hs⟩ hnot
        | true => rfl
      | receiving | aborting | joining | reissuing call | releasing | revoking =>
        rw [hs] at hil
        cases hil
    exact absurd htk.symm (h.replaced a ha (by rw [hret]; rfl) f hf)
  · exact absurd (hexp.trans htime) (not_le.mpr (hlv f hf))

theorem unexpired_of_accepted (h : Books s) (hacc : s.Accepted now) :
    s.NoneLost ∧ s.Unexpired now := by
  obtain ⟨f, hf, hok⟩ := hacc
  obtain ⟨entry, hen, htime, hun⟩ := Transport.Registry.authenticate_ok (accepts_eq_true.mp hok)
  have heq : ∀ g ∈ s.credentials.file, g = f := fun g hg => some.inj (hg.symm.trans hf)
  constructor
  · intro g hg a ha htk
    rw [heq g hg] at htk
    have hus := h.backed.sound.used a ha entry (htk ▸ hen)
    rw [hun] at hus
    cases hus
  · intro g hg
    rw [heq g hg]
    have hiss := h.backed.sound.entries f.token entry hen
    have hcr := List.inj_on_of_nodup_map h.backed.distinct hiss (h.backed.file f hf) rfl
    have hexp : entry.expiresAt = f.expiresAt := congrArg Credential.expiresAt hcr
    exact hexp ▸ htime

end

def Issuing.begun : Issuing → Bool
  | issue => false
  | write _ | record _ => true

def Alone (call : Option ℕ → Option Issuing) : Prop :=
  ∀ t u c d, call t = some c → call u = some d → c.begun = true → d.begun = true → t = u

/-- `maintain_bootstrap_credential` returns before the time is over for which it
found the credential fresh. -/
def System.Prompt (s : System) : Event → Prop
  | .finish now => ∀ decided, s.main = .maintained decided → now < decided + bootstrapRefreshLead
  | _ => True

structure Timely (k : Credentials) (call : Option ℕ → Option Issuing) : Prop where
  recorded : ∀ r ∈ k.fileCredentialExpiry, r ≤ k.latest + credentialTtl
  write : ∀ t c, call t = some (.write c) →
    c.expiresAt ≤ k.latest + credentialTtl ∧ ∀ r ∈ k.fileCredentialExpiry, r ≤ c.expiresAt
  record : ∀ t expiry, call t = some (.record expiry) → expiry ≤ k.latest + credentialTtl ∧
    (∀ r ∈ k.fileCredentialExpiry, r ≤ expiry) ∧ ∀ f ∈ k.file, f.expiresAt = expiry
  settled : ∀ f ∈ k.file, (∀ t expiry, call t ≠ some (.record expiry)) →
    k.fileCredentialExpiry = some f.expiresAt

def Promise (k : Credentials) : MainLoop → Prop
  | .maintained decided =>
    (∃ r ∈ k.fileCredentialExpiry, decided + bootstrapRefreshLead < r) ∧
      ∀ f ∈ k.file, decided + bootstrapRefreshLead < f.expiresAt
  | .refreshing decided .issue => decided ≤ k.latest
  | .refreshing decided (.write c) => decided + bootstrapRefreshLead < c.expiresAt
  | .refreshing decided (.record expiry) => decided + bootstrapRefreshLead < expiry
  | _ => True

section
variable {k k' : Credentials} {call call' : Option ℕ → Option Issuing} {draw : Draw}
  {t u : Option ℕ}

theorem Alone.other (h : Alone call) {c d : Issuing} (ht : call t = some c) (hc : c.begun)
    (hu : u ≠ t) (hud : call u = some d) : d.begun = false := by
  cases hd : d.begun with
  | false => rfl
  | true => exact absurd (h u t d c hud ht hd hc) hu

section
variable (h : Timely k call)
include h

theorem Timely.mono (hfile : k'.file = k.file)
    (hexp : k'.fileCredentialExpiry = k.fileCredentialExpiry) (hlt : k.latest ≤ k'.latest)
    (hcall : ∀ t, call' t = call t ∨ call t = none ∧ call' t = some .issue) : Timely k' call' := by
  have hsame : ∀ t c, c.begun → (call' t = some c ↔ call t = some c) := by
    intro t c hc
    rcases hcall t with heq | ⟨hnn, hiu⟩
    · rw [heq]
    · rw [hnn, hiu]
      cases c with
      | issue => cases hc
      | write _ | record _ => exact ⟨nofun, nofun⟩
  refine ⟨?_, ?_, ?_, ?_⟩
  · intro r hr
    rw [hexp] at hr
    have := h.recorded r hr
    omega
  · intro t c htc
    obtain ⟨hbn, hrec⟩ := h.write t c ((hsame t _ rfl).mp htc)
    rw [hexp]
    exact ⟨by omega, hrec⟩
  · intro t expiry hte
    obtain ⟨hbn, hrec, hkp⟩ := h.record t expiry ((hsame t _ rfl).mp hte)
    rw [hexp, hfile]
    exact ⟨by omega, hrec, hkp⟩
  · intro f hf hnn
    rw [hfile] at hf
    rw [hexp]
    exact h.settled f hf fun t expiry hte => hnn t expiry ((hsame t _ rfl).mpr hte)

theorem Timely.afterIssue (hdraw : draw.Regular k) (ht : call t = some .issue)
    (hcall : call' = update call t (some (.write (Credential.issue draw.bytes draw.now
      credentialTtl)))) (hal : Alone call') : Timely (k.issue draw) call' := by
  obtain ⟨hnow, hsw, -⟩ := hdraw
  have hself : call' t = some (.write (Credential.issue draw.bytes draw.now credentialTtl)) := by
    rw [hcall, update_self]
  have hot : ∀ u c, call' u = some c → c.begun → u = t := by
    intro u c huc hc
    by_contra hu
    have := hal.other hself rfl hu huc
    rw [hc] at this
    cases this
  refine ⟨?_, ?_, ?_, ?_⟩
  · intro r hr
    have := h.recorded r hr
    change r ≤ draw.sweptAt + credentialTtl
    omega
  · intro u c huc
    rw [hot u _ huc rfl, hself] at huc
    cases huc
    refine ⟨?_, ?_⟩
    · change draw.now + credentialTtl ≤ draw.sweptAt + credentialTtl
      omega
    · intro r hr
      have := h.recorded r hr
      change r ≤ draw.now + credentialTtl
      omega
  · intro u expiry hue
    rw [hot u _ hue rfl, hself] at hue
    cases hue
  · intro f hf hnn
    refine h.settled f hf ?_
    intro u expiry hue
    by_cases hu : u = t
    · rw [hu, ht] at hue
      cases hue
    · exact hnn u expiry (by rw [hcall, update_of_ne hu, hue])

theorem Timely.afterWrite (hal : Alone call) {c : Credential} (htime : k.latest ≤ now)
    (ht : call t = some (.write c)) :
    Timely (k.write c now) (update call t (some (.record c.expiresAt))) := by
  obtain ⟨hbn, hrec⟩ := h.write t c ht
  have hot : ∀ u d, update call t (some (.record c.expiresAt)) u = some d →
      d.begun → u = t := by
    intro u d hud hd
    by_contra hu
    rw [update_of_ne hu] at hud
    have := hal.other ht rfl hu hud
    rw [hd] at this
    cases this
  refine ⟨?_, ?_, ?_, ?_⟩
  · intro r hr
    have := h.recorded r hr
    change r ≤ now + credentialTtl
    omega
  · intro u d hud
    rw [hot u _ hud rfl, update_self] at hud
    cases hud
  · intro u expiry hue
    rw [hot u _ hue rfl, update_self] at hue
    cases hue
    refine ⟨hbn.trans (by change k.latest + _ ≤ now + _; omega), hrec, ?_⟩
    intro f hf
    obtain rfl : _ = f := some.inj hf
    rfl
  · intro f hf hnn
    exact absurd (update_self ..) (hnn t c.expiresAt)

theorem Timely.afterRecord (hal : Alone call) {expiry : ℕ} (ht : call t = some (.record expiry)) :
    Timely (k.record expiry) (update call t none) := by
  obtain ⟨hbn, -, hkp⟩ := h.record t expiry ht
  have hnn : ∀ u d, update call t none u = some d → d.begun = false := by
    intro u d hud
    rw [update_apply] at hud
    split at hud
    · cases hud
    · next hu => exact hal.other ht rfl hu hud
  refine ⟨?_, ?_, ?_, ?_⟩
  · intro r hr
    obtain rfl : expiry = r := some.inj hr
    exact hbn
  · intro u c huc
    cases hnn u _ huc
  · intro u e hue
    cases hnn u _ hue
  · intro f hf _
    exact congrArg some (hkp f hf).symm

end

theorem Promise.mono (h : Promise k m) (hfile : k'.file = k.file)
    (hexp : k'.fileCredentialExpiry = k.fileCredentialExpiry) (hlt : k.latest ≤ k'.latest) :
    Promise k' m := by
  cases m with
  | maintained decided =>
    rw [Promise, hfile, hexp]
    exact h
  | refreshing decided call =>
    cases call with
    | issue => exact h.trans hlt
    | write c | record expiry => exact h
  | booting call | idle | checking fileMissing | spawning conns => trivial

theorem Promise.issuing (h : Promise k m) (htime : Timely k call) (hdraw : draw.Regular k)
    {c : Issuing} (ht : call t = some c) : Promise (k.issuing draw c).1 m := by
  cases m with
  | booting call | idle | checking fileMissing | spawning conns => trivial
  | refreshing decided call =>
    cases call with
    | write c | record expiry => exact h
    | issue =>
      cases c with
      | issue => exact h.trans (hdraw.1.trans hdraw.2.1)
      | write c => exact h.trans hdraw.1
      | record expiry => exact h
  | maintained decided =>
    obtain ⟨⟨r, hr, hah⟩, hfile⟩ := h
    cases c with
    | issue => exact ⟨⟨r, hr, hah⟩, hfile⟩
    | write c =>
      refine ⟨⟨r, hr, hah⟩, ?_⟩
      intro f hf
      obtain rfl : _ = f := some.inj hf
      exact hah.trans_le ((htime.write t c ht).2 r hr)
    | record expiry =>
      exact ⟨⟨expiry, rfl, hah.trans_le ((htime.record t expiry ht).2.1 r hr)⟩, hfile⟩

end

structure Ahead (s : System) : Prop where
  alone : Alone s.call
  timely : Timely s.credentials s.call
  promise : Promise s.credentials s.main

section
variable {s s' : System} (h : Ahead s)
include h

theorem Ahead.moved (hmv : Moved s s') (hal : Alone s'.call) :
    Timely s'.credentials s'.call ∧ Promise s'.credentials s.main := by
  cases hmv with
  | linked now htime hcr hcall hrew =>
    rw [hcr]
    exact ⟨h.timely.mono rfl rfl htime hcall, h.promise.mono rfl rfl htime⟩
  | issuing t draw call hdraw ht hcr hcall hrew =>
    rw [hcr]
    refine ⟨?_, h.promise.issuing h.timely hdraw ht⟩
    cases call with
    | issue => exact h.timely.afterIssue hdraw ht hcall hal
    | write c => exact hcall ▸ h.timely.afterWrite h.alone hdraw.1 ht
    | record expiry => exact hcall ▸ h.timely.afterRecord h.alone ht
  | handshake id token now hid htime hkn hcr hcall hsr =>
    rw [hcr, hcall]
    exact ⟨h.timely.mono rfl rfl htime fun _ => .inl rfl, h.promise.mono rfl rfl htime⟩

theorem Ahead.fresh (hfr : expiring s.credentials.fileCredentialExpiry now = false) :
    Promise s.credentials (.maintained now) := by
  cases hr : s.credentials.fileCredentialExpiry with
  | none =>
    rw [hr] at hfr
    cases hfr
  | some r =>
    rw [hr, expiring, decide_eq_false_iff_not, not_le] at hfr
    have hah : now + bootstrapRefreshLead < r := by omega
    refine ⟨⟨r, hr, hah⟩, ?_⟩
    intro f hf
    by_cases hrecord : ∃ t expiry, s.call t = some (.record expiry)
    · obtain ⟨t, expiry, hte⟩ := hrecord
      obtain ⟨-, hrec, hkp⟩ := h.timely.record t expiry hte
      rw [hkp f hf]
      exact hah.trans_le (hrec r hr)
    · push Not at hrecord
      have hset := h.timely.settled f hf hrecord
      rw [hr] at hset
      exact hah.trans_eq (some.inj hset)

theorem Ahead.advance {draw : Draw} (hdraw : draw.Regular s.credentials) :
    Promise (s.advance draw).credentials (s.advance draw).main := by
  have hprom := h.promise
  unfold System.advance
  cases hm : s.main with
  | idle | maintained decided => exact hprom
  | booting call => cases call <;> trivial
  | checking fileMissing =>
    dsimp only [System.setMain, System.setCredentials]
    split
    · exact le_rfl
    · next hdue =>
      rw [Bool.not_eq_true, Bool.or_eq_false_iff] at hdue
      exact (h.fresh hdue.2).mono rfl rfl hdraw.1
  | refreshing decided call =>
    rw [hm] at hprom
    cases call with
    | issue =>
      have hdc := hprom.trans hdraw.1
      change decided + bootstrapRefreshLead < draw.now + credentialTtl
      have : bootstrapRefreshLead < credentialTtl := by decide
      omega
    | write c => exact hprom
    | record expiry =>
      refine ⟨⟨expiry, rfl, hprom⟩, ?_⟩
      intro f hf
      have hcall : s.call none = some (.record expiry) := congrArg MainLoop.call hm
      rw [(h.timely.record none expiry hcall).2.2 f hf]
      exact hprom
  | spawning conns => cases conns <;> trivial

theorem Ahead.step (hlinks : Links s) {e : Event} (hreg : s.Regular e)
    (hal : Alone (s.step e).call) : Ahead (s.step e) := by
  obtain ⟨htime, hprom⟩ := h.moved (step_moved hlinks hreg) hal
  refine ⟨hal, htime, ?_⟩
  cases e with
  | advance draw => exact h.advance hreg
  | maintain =>
    simp only [System.step, System.maintain]
    split
    · trivial
    · exact h.promise
  | poll snapshot =>
    simp only [System.step, System.poll]
    split
    · trivial
    · exact h.promise
  | finish now =>
    simp only [System.step, System.finish]
    split
    · trivial
    · exact h.promise
  | handshake id token now | giveUp id | register id | acknowledge id sent | hangUp id
  | replyLost id | disconnected id | serve id draw =>
    rw [main_step rfl]
    exact hprom

theorem Ahead.unexpired (hpro : s.Prompt (.finish now)) (hmain : s.main.hasMaintained) :
    s.Unexpired now := by
  have hprom := h.promise
  cases hm : s.main with
  | maintained decided =>
    rw [hm] at hprom
    intro f hf
    exact (hpro decided hm).trans (hprom.2 f hf)
  | booting call | idle | checking fileMissing | refreshing decided call | spawning conns =>
    rw [hm] at hmain
    cases hmain

end

theorem ahead_start : Ahead System.start where
  alone := by
    intro t u c d ht hu hc
    cases t with
    | none =>
      cases ht
      cases hc
    | some id => cases ht
  timely := by
    refine ⟨nofun, ?_, ?_, nofun⟩
    · intro t c ht
      cases t <;> cases ht
    · intro t expiry ht
      cases t <;> cases ht
  promise := trivial

section
variable {s : System} {e : Event}

theorem atRest_accepted_iff (h : Books s) (hbt : Booted s) (he : s.Regular e) :
    s.AtRest System.Accepted e ↔ s.AtRest (fun s now => s.NoneLost ∧ s.Unexpired now) e := by
  cases e with
  | finish now =>
    refine forall_congr' fun hmain => forall_congr' fun hqt => ?_
    refine ⟨unexpired_of_accepted h, ?_⟩
    intro hrs
    refine accepted_of_unexpired h he ?_ hqt hrs.1 hrs.2
    intro hfile
    have hun := hbt hfile
    cases hm : s.main with
    | maintained decided =>
      rw [hm] at hun
      cases hun
    | booting call | idle | checking fileMissing | refreshing decided call | spawning conns =>
      rw [hm] at hmain
      cases hmain
  | _ => exact Iff.rfl

theorem Ahead.atRest_unexpired (h : Ahead s) (hpro : s.Prompt e) : s.AtRest System.Unexpired e := by
  cases e with
  | finish now =>
    intro hmain _
    exact h.unexpired hpro hmain
  | _ => trivial

end

/-- When `maintain_bootstrap_credential` returns and nobody is attached, the stored token is
accepted exactly if no connection that used it was lost and it has not expired. -/
theorem stored_token_accepted_iff (events : List Event)
    (regular : Runs.Along System.step System.Regular System.start events) :
    (Runs.Along System.step (System.AtRest System.Accepted) System.start events ↔
      Runs.Along System.step (System.AtRest fun s now => s.NoneLost ∧ s.Unexpired now)
        System.start events) ∧
    (Runs.Along System.step (fun s e => Alone (s.step e).call ∧ s.Prompt e) System.start events →
      Runs.Along System.step (System.AtRest System.Unexpired) System.start events) := by
  have hbk : Books System.start ∧ Booted System.start := ⟨books_start, fun _ => rfl⟩
  have hst : ∀ (s : System) e, s.Regular e → Books s ∧ Booted s →
      Books (s.step e) ∧ Booted (s.step e) :=
    fun s e he h => ⟨h.1.step he, h.2.step h.1.links he⟩
  refine ⟨⟨?_, ?_⟩, ?_⟩
  · refine along_mono (fun s => Books s ∧ Booted s) hst ?_ regular hbk
    exact fun s e he h => (atRest_accepted_iff h.1 h.2 he).mp
  · refine along_mono (fun s => Books s ∧ Booted s) hst ?_ regular hbk
    exact fun s e he h => (atRest_accepted_iff h.1 h.2 he).mpr
  · intro hprompt
    refine along_mono (fun s => Links s ∧ Ahead s) ?_ ?_ (along_and regular hprompt)
      ⟨books_start.links, ahead_start⟩ hprompt
    · intro s e he h
      exact ⟨step_links h.1 e, h.2.step h.1 he.1 he.2.1⟩
    · intro s e he h hok
      exact h.2.atRest_unexpired hok.2

section
variable (s : System) (now : ℕ)

instance : Decidable s.Quiet :=
  inferInstanceAs (Decidable (∀ a ∈ s.credentials.store.authenticated,
    s.worker a.connection = .closed ∧ (s.serving a.connection).idle = true))

instance : Decidable (s.Accepted now) :=
  inferInstanceAs (Decidable (∃ f ∈ s.credentials.file, s.credentials.accepts f.token now = true))

instance (id : ℕ) : Decidable (s.Lost id) :=
  inferInstanceAs (Decidable (s.worker id = .closed ∧
    (s.serving id = .unserved ∨ s.serving id = .returned false)))

instance : Decidable s.NoneLost :=
  inferInstanceAs (Decidable (∀ f ∈ s.credentials.file, ∀ a ∈ s.credentials.store.authenticated,
    a.token = f.token → ¬ s.Lost a.connection))

instance : Decidable (s.Unexpired now) :=
  inferInstanceAs (Decidable (∀ f ∈ s.credentials.file, now < f.expiresAt))

instance (P : System → ℕ → Prop) [∀ s now, Decidable (P s now)] (e : Event) :
    Decidable (s.AtRest P e) :=
  match e with
  | .finish now => inferInstanceAs (Decidable (s.main.hasMaintained = true → s.Quiet → P s now))
  | .handshake .. | .giveUp _ | .register _ | .acknowledge .. | .hangUp _ | .replyLost _
  | .disconnected _ | .serve .. | .maintain | .poll _ | .advance _ => .isTrue trivial

instance (draw : Draw) (k : Credentials) : Decidable (draw.Regular k) :=
  inferInstanceAs (Decidable (k.latest ≤ draw.now ∧ draw.now ≤ draw.sweptAt ∧
    (Credential.issue draw.bytes 0 0).token ∉ k.store.tokens))

instance (e : Event) : Decidable (s.Regular e) :=
  match e with
  | .handshake _ token now => inferInstanceAs (Decidable (s.credentials.latest ≤ now ∧
      (token ∈ s.credentials.store.tokens → token ∈ s.credentials.written)))
  | .serve _ draw | .advance draw => inferInstanceAs (Decidable (draw.Regular s.credentials))
  | .finish now => inferInstanceAs (Decidable (s.credentials.latest ≤ now))
  | .giveUp _ | .register _ | .acknowledge .. | .hangUp _ | .replyLost _ | .disconnected _
  | .maintain | .poll _ => .isTrue trivial

end

def sampleDraw (byte : UInt8) (now : ℕ) : Draw :=
  ⟨List.replicate 16 byte, List.length_replicate, now, now⟩

def sampleAttached : List Event :=
  [.advance (sampleDraw 0 1), .advance (sampleDraw 1 2), .advance (sampleDraw 1 3),
    .handshake 7 (Credential.issue (List.replicate 16 0) 0 0).token 4, .register 7,
    .acknowledge 7 true]

def servedRun : List Event :=
  sampleAttached ++ [.poll [7], .advance (sampleDraw 1 5), .advance (sampleDraw 1 6), .hangUp 7,
    .disconnected 7, .serve 7 (sampleDraw 1 7), .serve 7 (sampleDraw 1 8),
    .serve 7 (sampleDraw 2 9), .serve 7 (sampleDraw 2 10), .serve 7 (sampleDraw 2 11),
    .serve 7 (sampleDraw 2 12), .maintain, .advance (sampleDraw 2 13), .finish 14]

theorem stored_token_accepted_servedRun :
    (run System.step System.start servedRun.dropLast).main.hasMaintained = true ∧
    (run System.step System.start servedRun.dropLast).Quiet ∧
    Runs.Along System.step (System.AtRest System.Accepted) System.start servedRun :=
  ⟨by decide +kernel, by decide +kernel,
    (stored_token_accepted_iff servedRun (by decide +kernel)).1.mpr (by decide +kernel)⟩

def lostRun : List Event :=
  sampleAttached ++ [.hangUp 7, .poll [], .advance (sampleDraw 1 5), .maintain,
    .advance (sampleDraw 1 6), .finish 7]

theorem used_token_stays_in_file : Runs.Along System.step System.Regular System.start lostRun ∧
      ¬ Runs.Along System.step (System.AtRest System.Accepted) System.start lostRun := by
  constructor <;> decide +kernel

end DshDesktop.Daemon.Bootstrap
