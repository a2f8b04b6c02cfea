import DshDesktop.Library.IpAddress
import DshDesktop.Shell.EnvironmentCheck

/-!
# The navigation policy of the surface

`evaluate_navigation` of `dsh_surface_policy.rs` decides on the parsed form of a URL and, for
the exact authority, on its text. `Url::parse` is a parameter whose hosts are written as
the URL standard writes them.
-/

namespace DshDesktop.Shell
open IpAddress List

inductive UrlHost
  | domain (name : String)
  | ipv4 (address : Ipv4)
  | ipv6 (address : Ipv6)
  deriving DecidableEq

def UrlHost.text : UrlHost → List Char
  | domain name => name.toList
  | ipv4 address => ipv4Text address
  | ipv6 address => '[' :: (ipv6Text address ++ [']'])

structure Url where
  scheme : String
  username : String
  password : Option String
  host : Option UrlHost
  port : Option ℕ
  deriving DecidableEq

def knownDefaultPort (scheme : String) : Option ℕ :=
  if scheme = "http" ∨ scheme = "ws" then some 80
  else if scheme = "https" ∨ scheme = "wss" then some 443
  else if scheme = "ftp" then some 21
  else none

namespace Url

def hostStr (u : Url) : Option (List Char) := u.host.map UrlHost.text

def portOrKnownDefault (u : Url) : Option ℕ := u.port <|> knownDefaultPort u.scheme

def origin (u : Url) : String :=
  match u.hostStr, u.portOrKnownDefault with
  | some host, some port =>
    if knownDefaultPort u.scheme = some port then u.scheme ++ "://" ++ String.ofList host
    else u.scheme ++ "://" ++ String.ofList host ++ ":" ++ toString port
  | _, _ => "null"

end Url

def policySchemaVersion : ℕ := 1
def maxCandidateUrlLength : ℕ := 2048

inductive NavigationKind
  | mainFrame
  | newWindow
  | download
  | permission

structure NavigationRequest where
  schemaVersion : ℕ
  environmentId : String
  candidateUrl : String
  navigationKind : NavigationKind
  userGesture : Bool

inductive NavigationDisposition
  | allowInSurface
  | delegateExternal
  | deny
  deriving DecidableEq

inductive NavigationReason
  | sameOrigin
  | externalHttpUserAction
  | externalNavigationNoUserGesture
  | invalidUrl
  | credentialsForbidden
  | schemeForbidden
  | loopbackOriginMismatch
  | newWindowDenied
  | downloadDenied
  | permissionDenied
  | policyUnavailable

structure NavigationDecision where
  schemaVersion : ℕ
  environmentId : String
  navigationKind : NavigationKind
  candidateOrigin : Option String
  disposition : NavigationDisposition
  reason : NavigationReason
  userGestureRequired : Bool
  userConfirmationRequired : Bool
  privilegedIpc : String
  openAutomatically : Bool

def decision (r : NavigationRequest) (candidateOrigin : Option String)
    (disposition : NavigationDisposition) (reason : NavigationReason)
    (userGestureRequired userConfirmationRequired : Bool) : NavigationDecision where
  schemaVersion := policySchemaVersion
  environmentId := r.environmentId
  navigationKind := r.navigationKind
  candidateOrigin := candidateOrigin
  disposition := disposition
  reason := reason
  userGestureRequired := userGestureRequired
  userConfirmationRequired := userConfirmationRequired
  privilegedIpc := "denied"
  openAutomatically := false

def deny (r : NavigationRequest) (candidateOrigin : Option String) (reason : NavigationReason) :
    NavigationDecision :=
  decision r candidateOrigin .deny reason false false

def DshEnvironment.fixedLoopbackPort (e : DshEnvironment) : Option ℕ :=
  if e.endpoint.host ≠ "127.0.0.1" then none
  else
    match e.endpoint.port with
    | .fixed port => some port
    | .named _ => none

def safeParsedOrigin (u : Url) : Option String :=
  if u.scheme ≠ "http" ∧ u.scheme ≠ "https" then none
  else if u.origin ≠ "null" ∧ u.origin.utf8ByteSize ≤ 256 then some u.origin
  else none

def safeOrigin (parse : String → Option Url) (candidateUrl : String) : Option String :=
  if maxCandidateUrlLength < candidateUrl.utf8ByteSize then none
  else (parse candidateUrl).bind safeParsedOrigin

def splitOnce (separator : List Char) : List Char → Option (List Char)
  | [] => if separator.isEmpty then some [] else none
  | c :: cs =>
    if separator.isPrefixOf (c :: cs) then some ((c :: cs).drop separator.length)
    else splitOnce separator cs

def rawAuthority (candidateUrl : String) : Option (List Char) :=
  (splitOnce [':', '/', '/'] candidateUrl.toList).map fun remainder =>
    remainder.takeWhile fun c => c != '/' && c != '?' && c != '#'

def stripBrackets : List Char → List Char
  | '[' :: rest => if rest.getLast? = some ']' then rest.dropLast else '[' :: rest
  | cs => cs

def asciiLowercase (cs : List Char) : List Char := cs.map Char.toLower

def localhost : List Char := "localhost".toList

def isLoopbackHost (host : List Char) : Bool :=
  let normalized := stripBrackets host
  asciiLowercase normalized == localhost ||
    ('.' :: localhost).isSuffixOf (asciiLowercase normalized) ||
    (parseIpv4 normalized).any Ipv4.isLoopback || parseIpv6 normalized == some loopbackGroups

def allowedHost : List Char := "127.0.0.1".toList

def sameOrigin (u : Url) (candidateUrl : String) (port : ℕ) : Bool :=
  u.scheme == "http" && u.hostStr == some allowedHost && u.portOrKnownDefault == some port &&
    rawAuthority candidateUrl == some (allowedHost ++ ':' :: (toString port).toList)

def evaluateCandidate (r : NavigationRequest) (port : ℕ) (u : Url) : NavigationDecision :=
  if u.username ≠ "" ∨ u.password.isSome then
    deny r (safeParsedOrigin u) .credentialsForbidden
  else if u.scheme ≠ "http" ∧ u.scheme ≠ "https" then
    deny r (safeParsedOrigin u) .schemeForbidden
  else if sameOrigin u r.candidateUrl port then
    decision r (safeParsedOrigin u) .allowInSurface .sameOrigin false false
  else if u.hostStr.any isLoopbackHost then
    deny r (safeParsedOrigin u) .loopbackOriginMismatch
  else if !r.userGesture then
    deny r (safeParsedOrigin u) .externalNavigationNoUserGesture
  else decision r (safeParsedOrigin u) .delegateExternal .externalHttpUserAction true true

def evaluateNavigation (parse : String → Option Url) (e : DshEnvironment)
    (r : NavigationRequest) : NavigationDecision :=
  if r.schemaVersion ≠ policySchemaVersion ∨ r.environmentId ≠ e.id then
    deny r none .policyUnavailable
  else
    match e.fixedLoopbackPort with
    | none => deny r none .policyUnavailable
    | some port =>
      match r.navigationKind with
      | .newWindow => deny r (safeOrigin parse r.candidateUrl) .newWindowDenied
      | .download => deny r (safeOrigin parse r.candidateUrl) .downloadDenied
      | .permission => deny r (safeOrigin parse r.candidateUrl) .permissionDenied
      | .mainFrame =>
        if r.candidateUrl = "" ∨ maxCandidateUrlLength < r.candidateUrl.utf8ByteSize then
          deny r none .invalidUrl
        else
          match parse r.candidateUrl with
          | none => deny r none .invalidUrl
          | some u => evaluateCandidate r port u

def DenotesLocal : UrlHost → Prop
  | .domain name =>
    asciiLowercase name.toList ∈ [localhost, localhost ++ ['.']] ∨
      '.' :: localhost <:+ asciiLowercase name.toList ∨
      '.' :: (localhost ++ ['.']) <:+ asciiLowercase name.toList
  | .ipv4 address => address.isLoopback = true
  | .ipv6 address =>
    address.groups = loopbackGroups ∨ ∃ v4 : Ipv4, v4.isLoopback = true ∧ address = .mapped v4

/-- A name that ends in the dot of the root, or an address of four bytes written as one of
eight groups. -/
def Unrecognised : UrlHost → Prop
  | .domain name =>
    asciiLowercase name.toList = localhost ++ ['.'] ∨
      '.' :: (localhost ++ ['.']) <:+ asciiLowercase name.toList
  | .ipv4 _ => False
  | .ipv6 address => ∃ v4 : Ipv4, v4.isLoopback = true ∧ address = .mapped v4

structure NavigationSafe (parse : String → Option Url) (e : DshEnvironment)
    (r : NavigationRequest) (d : NavigationDecision) : Prop where
  inSurface : d.disposition = .allowInSurface → ∃ u port, parse r.candidateUrl = some u ∧
    e.fixedLoopbackPort = some port ∧ u.scheme = "http" ∧ u.hostStr = some allowedHost ∧
    u.portOrKnownDefault = some port ∧ u.username = "" ∧ u.password = none
  delegated : d.disposition = .delegateExternal → r.userGesture = true ∧
    ∃ u, parse r.candidateUrl = some u ∧ ∀ host ∈ u.host, ¬ DenotesLocal host

structure UserNavigation (parse : String → Option Url) (e : DshEnvironment)
    (r : NavigationRequest) (u : Url) : Prop where
  version : r.schemaVersion = policySchemaVersion
  environment : r.environmentId = e.id
  policy : e.fixedLoopbackPort ≠ none
  kind : r.navigationKind = .mainFrame
  length : r.candidateUrl ≠ "" ∧ r.candidateUrl.utf8ByteSize ≤ maxCandidateUrlLength
  parsed : parse r.candidateUrl = some u
  credentials : u.username = "" ∧ u.password = none
  scheme : u.scheme = "http" ∨ u.scheme = "https"
  gesture : r.userGesture = true

variable {cs ending host : List Char} {c : Char}

theorem stripBrackets_of_last (h : cs.getLast? ≠ some ']') : stripBrackets cs = cs := by
  unfold stripBrackets
  split
  · rename_i rest
    refine if_neg ?_
    intro hrs
    cases rest with
    | nil => cases hrs
    | cons c rest => exact h (by rw [getLast?_cons_cons]; exact hrs)
  · rfl

theorem stripBrackets_of_head (h : c ≠ '[') : stripBrackets (c :: cs) = c :: cs := by
  unfold stripBrackets
  split
  · rename_i heq
    exact absurd (cons.inj heq).1 h
  · rfl

theorem stripBrackets_bracketed : stripBrackets ('[' :: (cs ++ [']'])) = cs := by
  rw [stripBrackets, if_pos getLast?_concat, dropLast_concat]

theorem getLast?_of_suffix (h : ending ++ [c] <:+ cs) : cs.getLast? = some c := by
  obtain ⟨front, rfl⟩ := h
  rw [← append_assoc, getLast?_concat]

theorem last_of_suffix (hlw : Char.toLower ']' ≠ c) (h :
    ending ++ [c] <:+ asciiLowercase cs) : cs.getLast? ≠ some ']' := by
  intro hlast
  have hmap : (asciiLowercase cs).getLast? = some (Char.toLower ']') := by
    rw [asciiLowercase, getLast?_map, hlast]
    rfl
  rw [getLast?_of_suffix h] at hmap
  exact hlw (Option.some.inj hmap).symm

theorem addressChar_lowercase (h : AddressChar c) : c.toLower ≠ 'l' := by
  have hsmall : ∀ n : Fin 128, AddressChar (Char.ofNat n) → (Char.ofNat n).toLower ≠ 'l' := by
    decide +kernel
  have hc := hsmall ⟨c.toNat, h.toNat_lt⟩
  rw [Char.ofNat_toNat] at hc
  exact hc h

theorem not_mem_lowercase (h : ∀ c ∈ cs, AddressChar c) : 'l' ∉ asciiLowercase cs := by
  intro hl
  obtain ⟨c, hc, hlw⟩ := mem_map.mp hl
  exact addressChar_lowercase (h c hc) hlw

theorem isLoopbackHost_iff : isLoopbackHost host ↔ asciiLowercase (stripBrackets host) = localhost ∨
      '.' :: localhost <:+ asciiLowercase (stripBrackets host) ∨
      (∃ addr, parseIpv4 (stripBrackets host) = some addr ∧ addr.isLoopback) ∨
      parseIpv6 (stripBrackets host) = some loopbackGroups := by
  rw [isLoopbackHost, Bool.or_eq_true, Bool.or_eq_true, Bool.or_eq_true, beq_iff_eq, beq_iff_eq,
    isSuffixOf_iff_suffix, Option.any_eq_true, or_assoc, or_assoc]

variable {host : UrlHost} {u : Url}

theorem isLoopbackHost_of_local (hlc : DenotesLocal host) (hkn : ¬ Unrecognised host) :
    isLoopbackHost host.text := by
  rw [isLoopbackHost_iff]
  cases host with
  | domain name =>
    rw [Unrecognised, not_or] at hkn
    have hen : localhost <:+ asciiLowercase name.toList ∧ (asciiLowercase name.toList = localhost ∨
          '.' :: localhost <:+ asciiLowercase name.toList) := by
      rcases hlc with hnm | hpar | hrt
      · rw [mem_cons, mem_singleton] at hnm
        rcases hnm with hnm | hrt
        · exact ⟨hnm ▸ suffix_rfl, .inl hnm⟩
        · exact absurd hrt hkn.1
      · exact ⟨(suffix_cons '.' localhost).trans hpar, .inr hpar⟩
      · exact absurd hrt hkn.2
    have hst : stripBrackets (UrlHost.domain name).text = name.toList := by
      have hsp : localhost = "localhos".toList ++ ['t'] := by decide
      rw [hsp] at hen
      exact stripBrackets_of_last (last_of_suffix (by decide) hen.1)
    rw [hst]
    rcases hen.2 with hnm | hpar
    · exact .inl hnm
    · exact .inr (.inl hpar)
  | ipv4 addr =>
    have htx := parseIpv4_text addr
    have hst : stripBrackets (ipv4Text addr) = ipv4Text addr := by
      have hch := parseIpv4_chars htx
      generalize ipv4Text addr = text at hch
      cases text with
      | nil => rfl
      | cons c cs =>
        refine stripBrackets_of_head ?_
        intro hc
        have had := hch c mem_cons_self
        rw [hc] at had
        exact absurd had (by decide)
    refine .inr (.inr (.inl ⟨addr, ?_, hlc⟩))
    rw [UrlHost.text, hst, htx]
  | ipv6 addr =>
    rcases hlc with hlp | hmp
    · refine .inr (.inr (.inr ?_))
      rw [UrlHost.text, stripBrackets_bracketed]
      exact parseIpv6_loopback hlp
    · exact absurd hmp hkn

theorem isLoopbackHost_unrecognised (h : Unrecognised host) :
    isLoopbackHost host.text = false ∧ host.text ≠ allowedHost := by
  rw [← Bool.not_eq_true, isLoopbackHost_iff]
  cases host with
  | domain name =>
    have hen : localhost ++ ['.'] <:+ asciiLowercase name.toList := by
      rcases h with hnm | hpar
      · exact hnm ▸ suffix_rfl
      · exact (suffix_cons '.' _).trans hpar
    have hlast := getLast?_of_suffix hen
    have hl : 'l' ∈ asciiLowercase name.toList := hen.subset (by decide)
    have hst : stripBrackets (UrlHost.domain name).text = name.toList :=
      stripBrackets_of_last (last_of_suffix (by decide) hen)
    rw [hst]
    refine ⟨?_, ?_⟩
    · intro hlp
      rcases hlp with hnm | hpar | ⟨addr, had, -⟩ | hgr
      · rw [hnm] at hlast
        exact absurd hlast (by decide)
      · have hsp : '.' :: localhost = ".localhos".toList ++ ['t'] := by decide
        rw [hsp] at hpar
        rw [getLast?_of_suffix hpar] at hlast
        exact absurd hlast (by decide)
      · exact not_mem_lowercase (parseIpv4_chars had) hl
      · exact not_mem_lowercase (parseIpv6_chars hgr) hl
    · intro hal
      rw [show name.toList = allowedHost from hal] at hlast
      exact absurd hlast (by decide)
  | ipv4 addr => exact absurd h (by rw [Unrecognised]; exact not_false)
  | ipv6 addr =>
    obtain ⟨v4, -, rfl⟩ := h
    have hch := not_mem_lowercase (ipv6Text_chars (.mapped v4))
    obtain ⟨rest, htx⟩ := ipv6Text_mapped v4
    rw [UrlHost.text, stripBrackets_bracketed]
    refine ⟨?_, ?_⟩
    · intro hlp
      rcases hlp with hnm | hpar | ⟨addr, had, -⟩ | hgr
      · exact hch (by rw [hnm]; decide)
      · exact hch (hpar.subset (by decide))
      · rw [htx, parseIpv4_colon] at had
        cases had
      · exact parseIpv6_mapped v4 hgr
    · intro hal
      have hhd := congrArg head? hal
      exact absurd hhd (by rw [head?_cons]; decide)

theorem Unrecognised.denotesLocal (h : Unrecognised host) : DenotesLocal host := by
  cases host with
  | domain name =>
    rcases h with hnm | hpar
    · exact .inl (by rw [hnm]; decide)
    · exact .inr (.inr hpar)
  | ipv4 addr => cases h
  | ipv6 addr => exact .inr h

section
variable {parse : String → Option Url} {e : DshEnvironment} {r : NavigationRequest}

theorem evaluateNavigation_cases (parse : String → Option Url) :
    (evaluateNavigation parse e r).disposition = .deny ∨
      ∃ u port, r.schemaVersion = policySchemaVersion ∧ r.environmentId = e.id ∧
        e.fixedLoopbackPort = some port ∧ r.navigationKind = .mainFrame ∧ r.candidateUrl ≠ "" ∧
        r.candidateUrl.utf8ByteSize ≤ maxCandidateUrlLength ∧ parse r.candidateUrl = some u ∧
        evaluateNavigation parse e r = evaluateCandidate r port u := by
  rw [evaluateNavigation]
  by_cases hdw : r.schemaVersion ≠ policySchemaVersion ∨ r.environmentId ≠ e.id
  · rw [if_pos hdw]
    exact .inl rfl
  rw [if_neg hdw]
  rw [not_or, not_not, not_not] at hdw
  cases hport : e.fixedLoopbackPort with
  | none => exact .inl rfl
  | some port =>
    cases hkn : r.navigationKind with
    | newWindow | download | permission => exact .inl rfl
    | mainFrame =>
      dsimp only
      by_cases hlen : r.candidateUrl = "" ∨ maxCandidateUrlLength < r.candidateUrl.utf8ByteSize
      · rw [if_pos hlen]
        exact .inl rfl
      rw [if_neg hlen]
      rw [not_or, not_lt] at hlen
      cases hpa : parse r.candidateUrl with
      | none => exact .inl rfl
      | some u =>
        exact .inr ⟨u, port, hdw.1, hdw.2, rfl, rfl, hlen.1, hlen.2, rfl, rfl⟩

theorem UserNavigation.evaluate (h : UserNavigation parse e r u) :
    ∃ port, evaluateNavigation parse e r = evaluateCandidate r port u := by
  obtain ⟨port, hport⟩ := Option.ne_none_iff_exists'.mp h.policy
  refine ⟨port, ?_⟩
  rw [evaluateNavigation, if_neg (by simp [h.version, h.environment]), hport]
  simp only [h.kind, h.parsed]
  rw [if_neg (not_or.mpr ⟨h.length.1, Nat.not_lt.mpr h.length.2⟩)]

theorem no_credentials (h : ¬ (u.username ≠ "" ∨ u.password.isSome)) :
    u.username = "" ∧ u.password = none := by
  rw [not_or, not_not, Bool.not_eq_true, Option.isSome_eq_false_iff, Option.isNone_iff_eq_none]
    at h
  exact h

theorem evaluateCandidate_disposition {port : ℕ} :
    (evaluateCandidate r port u).disposition = .deny ∨ (u.username = "" ∧ u.password = none) ∧
        ((evaluateCandidate r port u).disposition = .allowInSurface ∧
            sameOrigin u r.candidateUrl port ∨
          (evaluateCandidate r port u).disposition = .delegateExternal ∧
            u.hostStr.any isLoopbackHost = false ∧ r.userGesture ∧
            (u.scheme = "http" ∨ u.scheme = "https")) := by
  rw [evaluateCandidate]
  split_ifs with hcr hsch heq hlp hgs
  · exact .inl rfl
  · exact .inl rfl
  · exact .inr ⟨no_credentials hcr, .inl ⟨rfl, heq⟩⟩
  · exact .inl rfl
  · exact .inl rfl
  · rw [not_and_or, not_not, not_not] at hsch
    exact .inr ⟨no_credentials hcr, .inr ⟨rfl, by simpa using hlp,
      by simpa using hgs, hsch⟩⟩

theorem Url.hostStr_of_host (h : u.host = some host) : u.hostStr = some host.text := by
  rw [Url.hostStr, h]
  rfl

theorem navigationSafe_of_deny {d : NavigationDecision} (h : d.disposition = .deny) :
    NavigationSafe parse e r d := by
  constructor
  · intro hal
    rw [h] at hal
    cases hal
  · intro hdl
    rw [h] at hdl
    cases hdl

theorem UserNavigation.delegated (h : UserNavigation parse e r u) (hhs : u.host = some host)
    (hms : Unrecognised host) : (evaluateNavigation parse e r).disposition = .delegateExternal := by
  obtain ⟨port, hev⟩ := h.evaluate
  obtain ⟨hlp, hal⟩ := isLoopbackHost_unrecognised hms
  have hstr := Url.hostStr_of_host hhs
  have heq : ¬ sameOrigin u r.candidateUrl port := by
    intro heq
    rw [sameOrigin, hstr] at heq
    simp [hal] at heq
  rw [hev, evaluateCandidate, if_neg (by simp [h.credentials.1, h.credentials.2]),
    if_neg (by rcases h.scheme with hsch | hsch <;> simp [hsch]), if_neg heq,
    if_neg (by simp [hstr, hlp]), if_neg (by simp [h.gesture])]
  rfl

/-- The policy keeps its promise on a request exactly when the request is not a user's
navigation to a rooted name of the local machine or to a mapped loopback address. -/
theorem navigation_safe_iff (parse : String → Option Url) (e : DshEnvironment)
    (r : NavigationRequest) :
    NavigationSafe parse e r (evaluateNavigation parse e r) ↔
      ∀ u, UserNavigation parse e r u → ∀ host ∈ u.host, ¬ Unrecognised host := by
  constructor
  · intro hsf u hus host hhs hms
    obtain ⟨-, u', hpa, hlc⟩ := hsf.delegated (hus.delegated hhs hms)
    rw [hus.parsed] at hpa
    cases hpa
    exact hlc host hhs hms.denotesLocal
  · intro hcondition
    rcases evaluateNavigation_cases parse with
      hdn | ⟨u, port, hvr, hen, hpo, hkn, hnn, hlength, hparse, hev⟩
    · exact navigationSafe_of_deny hdn
    rw [hev]
    rcases evaluateCandidate_disposition with
      hdn | ⟨hcredentials, ⟨hal, heq⟩ | ⟨hdl, hlp, hgs, hscheme⟩⟩
    · exact navigationSafe_of_deny hdn
    · constructor
      · intro _
        rw [sameOrigin, Bool.and_eq_true, Bool.and_eq_true, Bool.and_eq_true, beq_iff_eq,
          beq_iff_eq, beq_iff_eq] at heq
        exact ⟨u, port, hparse, hpo, heq.1.1.1, heq.1.1.2, heq.1.2, hcredentials.1, hcredentials.2⟩
      · intro hdl
        rw [hal] at hdl
        cases hdl
    constructor
    · intro hal
      rw [hdl] at hal
      cases hal
    · intro _
      refine ⟨hgs, u, hparse, ?_⟩
      intro host hhs hlc
      have hus : UserNavigation parse e r u :=
        ⟨hvr, hen, by rw [hpo]; simp, hkn, ⟨hnn, hlength⟩, hparse, hcredentials, hscheme, hgs⟩
      have hrecognised := isLoopbackHost_of_local hlc (hcondition u hus host hhs)
      rw [Url.hostStr_of_host hhs, Option.any_some, hrecognised] at hlp
      cases hlp

end

def fixedPortEnvironment : DshEnvironment :=
  { brokenPathEnvironment with endpoint := ⟨"127.0.0.1", .fixed 3000⟩ }

def parseLocalUrls (text : String) : Option Url :=
  if text = "http://localhost.:3000/" then
    some ⟨"http", "", none, some (.domain "localhost."), some 3000⟩
  else if text = "http://[::ffff:127.0.0.1]:3000/" then
    some ⟨"http", "", none, some (.ipv6 (.mapped .localhost)), some 3000⟩
  else none

def clickOn (url : String) : NavigationRequest :=
  ⟨1, fixedPortEnvironment.id, url, .mainFrame, true⟩

/-- Both URLs lead to the port of the surface on the local machine, and both are handed to
the system browser. -/
theorem local_machine_delegated : (evaluateNavigation parseLocalUrls fixedPortEnvironment
        (clickOn "http://localhost.:3000/")).disposition = .delegateExternal ∧
      (evaluateNavigation parseLocalUrls fixedPortEnvironment
        (clickOn "http://[::ffff:127.0.0.1]:3000/")).disposition = .delegateExternal ∧
      ¬ NavigationSafe parseLocalUrls fixedPortEnvironment (clickOn "http://localhost.:3000/")
        (evaluateNavigation parseLocalUrls fixedPortEnvironment
          (clickOn "http://localhost.:3000/")) := by
  have hdl : (evaluateNavigation parseLocalUrls fixedPortEnvironment
      (clickOn "http://localhost.:3000/")).disposition = .delegateExternal := by decide +kernel
  have hparsed : parseLocalUrls "http://localhost.:3000/" =
      some ⟨"http", "", none, some (.domain "localhost."), some 3000⟩ := by decide +kernel
  refine ⟨hdl, by decide +kernel, ?_⟩
  intro hsf
  obtain ⟨-, u, hu, hlc⟩ := hsf.delegated hdl
  rw [show (clickOn "http://localhost.:3000/").candidateUrl = "http://localhost.:3000/" from rfl,
    hparsed] at hu
  cases hu
  exact hlc _ rfl (.inl (by decide +kernel))

end DshDesktop.Shell
