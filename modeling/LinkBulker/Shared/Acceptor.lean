import Mathlib
import LinkBulker.Shared.Url

/-! The host that `extractAcceptorHost` makes of an acceptor, over a URL parser that keeps what the
WHATWG standard says of hosts. -/

namespace LinkBulker.Shared

def specialSchemes : List String := ["http:", "https:", "ws:", "wss:", "ftp:", "file:"]

def URL.special (u : URL) : Bool := u.protocol ∈ specialSchemes

def IsHost (newURL : UrlParser) (host : String) : Prop :=
  host ≠ "" ∧ ∃ s u, newURL s = some u ∧ u.special ∧ u.hostname = host

def isIPv6Char (c : Char) : Bool := ('0' ≤ c && c ≤ '9') || ('a' ≤ c && c ≤ 'f') || c = ':'

/-- What a serialised host looks like: a domain, an IPv4 address or an opaque host, or an IPv6
address in brackets. -/
structure HostForm (host : String) : Prop where
  spaceless : ∀ c ∈ host.toList, isWhiteSpace c = false
  bracketed : ':' ∈ host.toList →
    ∃ address : List Char, host.toList = '[' :: address ++ [']'] ∧ ∀ c ∈ address, isIPv6Char c
  unbracketed : ':' ∉ host.toList → '[' ∉ host.toList

/-- The WHATWG standard, as far as the hosts are concerned. -/
structure Whatwg (newURL : UrlParser) : Prop where
  form : ∀ {s u}, newURL s = some u → HostForm u.hostname
  lower : ∀ {s u}, newURL s = some u → u.special → ∀ c ∈ u.hostname.toList, c.isUpper = false
  /-- Without a base a URL has a scheme. -/
  scheme : ∀ {s : String}, ':' ∉ s.toList → newURL s = none
  https : ∀ {s u}, newURL ("https://" ++ s) = some u → u.protocol = "https:"
  /-- A host that opens a bracket closes it. -/
  unclosed : ∀ {s : String}, ']' ∉ s.toList → '@' ∉ s.toList → newURL ("https://[" ++ s) = none
  /-- A host is parsed back from where it is written out. -/
  roundTrip : ∀ {host}, IsHost newURL host → ∀ slash ∈ ["", "/"],
    newURL ("https://" ++ host ++ slash) = some ⟨"https:", host⟩
  /-- A domain without its first label is a domain. -/
  label : ∀ {rest : String}, rest ≠ "" → IsHost newURL ("www." ++ rest) → IsHost newURL rest

def acceptorURL (newURL : UrlParser) (input : String) : Option URL :=
  [trim input, "https://" ++ trim input].findSome? fun candidate =>
    (newURL candidate).filter fun u => u.hostname ≠ ""

/-- `startsWith('www.')` and `slice(4)`. -/
def dropWww (cs : List Char) : List Char := if "www.".toList.isPrefixOf cs then cs.drop 4 else cs

def bareHost (host : String) : String := String.ofList (dropWww (toLowerCase host).toList)

structure NormalForm (newURL : UrlParser) (host : String) : Prop where
  nonempty : host ≠ ""
  lower : ∀ c ∈ host.toList, c.isUpper = false
  portless : ':' ∉ host.toList
  bare : ¬ "www.".toList <+: host.toList
  accepted : extractAcceptorHost newURL host = .ok host
  recognised : safeHost newURL ("https://" ++ host ++ "/") = some host

/-- A host of one `www.` at most, which is not all of it, and no IPv6 address.  A host of a scheme
that is not special is kept as it is written, so there it also has to be one that the special schemes
know. -/
def Nameable (newURL : UrlParser) (u : URL) : Prop :=
  ':' ∉ u.hostname.toList ∧ toLowerCase u.hostname ≠ "www." ∧
    ¬ "www.www.".toList <+: (toLowerCase u.hostname).toList ∧
    (u.special = false → IsHost newURL (bareHost u.hostname))

def beforeColon (host : String) : List Char := host.toList.takeWhile (· ≠ ':')

/-- Not both hosts are just `www.`, and two IPv6 addresses differ before their first colon if they
do at all. -/
def Tellable (host host' : String) : Prop :=
  ¬ (bareHost host = "" ∧ bareHost host' = "") ∧
    (':' ∈ host.toList → ':' ∈ host'.toList → beforeColon host = beforeColon host' → host = host')

section Laws

variable {newURL : UrlParser} {host s : String} {u : URL} {cs : List Char}

theorem toLower_eq_iff {c d : Char} (hd : d.isAlpha = false) : c.toLower = d ↔ c = d := by
  constructor
  · rintro rfl
    rw [Char.isAlpha_toLower_eq_isAlpha] at hd
    have hupper : ¬ c.isUpper := fun hupper => by simp [Char.isAlpha, hupper] at hd
    exact (Char.toLower_eq_of_not_isUpper hupper).symm
  · rintro rfl
    exact Char.toLower_eq_of_not_isUpper fun hupper => by simp [Char.isAlpha, hupper] at hd

@[simp] theorem toList_toLowerCase (s : String) :
    (toLowerCase s).toList = s.toList.map Char.toLower := String.toList_ofList

theorem toLowerCase_eq_self (h : ∀ c ∈ s.toList, c.isUpper = false) : toLowerCase s = s := by
  have hmap : s.toList.map Char.toLower = s.toList := by
    refine (List.map_congr_left fun c hc => ?_).trans (List.map_id _)
    exact Char.toLower_eq_of_not_isUpper (by simp [h c hc])
  rw [toLowerCase, hmap, String.ofList_toList]

theorem trim_eq_self (h : ∀ c ∈ s.toList, isWhiteSpace c = false) : trim s = s := by
  have hfront : s.toList.dropWhile isWhiteSpace = s.toList := by
    rw [List.dropWhile_eq_self_iff]
    intro hpos
    simp [h _ (List.getElem_mem hpos)]
  have hback : s.toList.rdropWhile isWhiteSpace = s.toList := by
    rw [List.rdropWhile_eq_self_iff]
    intro hne
    simp [h _ (List.getLast_mem hne)]
  rw [trim, trimChars, hfront, hback, String.ofList_toList]

theorem dropWww_append (cs : List Char) : dropWww ("www.".toList ++ cs) = cs := by
  rw [dropWww, if_pos (List.isPrefixOf_iff_prefix.mpr (List.prefix_append _ _))]
  rfl

theorem dropWww_of_not (h : ¬ "www.".toList <+: cs) : dropWww cs = cs :=
  if_neg fun hpre => h (List.isPrefixOf_iff_prefix.mp hpre)

theorem dropWww_sublist (cs : List Char) : (dropWww cs).Sublist cs := by
  unfold dropWww
  split
  · exact List.drop_sublist 4 cs
  · exact List.Sublist.refl cs

theorem normalizeHost_eq (h : ∀ c ∈ host.toList, isWhiteSpace c = false) :
    normalizeHost host =
      String.ofList (dropWww ((toLowerCase host).toList.takeWhile (· ≠ ':'))) := by
  rw [normalizeHost, trim_eq_self h]
  unfold dropWww
  split <;> rfl

theorem mem_toLowerCase {d : Char} (hd : d.isAlpha = false) :
    d ∈ (toLowerCase s).toList ↔ d ∈ s.toList := by
  simp [toLower_eq_iff hd]

theorem normalizeHost_eq_bareHost (h : ∀ c ∈ host.toList, isWhiteSpace c = false)
    (hcolon : ':' ∉ host.toList) : normalizeHost host = bareHost host := by
  have hcut : (toLowerCase host).toList.takeWhile (· ≠ ':') = (toLowerCase host).toList := by
    rw [List.takeWhile_eq_self_iff]
    rintro c hc
    simp only [decide_eq_true_eq]
    rintro rfl
    exact hcolon ((mem_toLowerCase rfl).mp hc)
  rw [normalizeHost_eq h, hcut, bareHost]

theorem isUpper_of_isIPv6Char {c : Char} (h : isIPv6Char c) : c.isUpper = false := by
  have hrange : c.toNat < 65 ∨ 97 ≤ c.toNat := by
    simp only [isIPv6Char, Bool.or_eq_true, Bool.and_eq_true, decide_eq_true_eq] at h
    rcases h with (⟨-, hle⟩ | ⟨hle, -⟩) | rfl
    · exact .inl (Nat.lt_of_le_of_lt (Char.le_def.mp hle) (by decide))
    · exact .inr (Char.le_def.mp hle)
    · exact .inl (by decide)
  rw [Char.isUpper, decide_eq_false_iff_not]
  rintro ⟨hlow, hhigh⟩
  have hlow' : 65 ≤ c.toNat := hlow
  have hhigh' : c.toNat ≤ 90 := hhigh
  omega

theorem takeWhile_append_of_mem {c : Char} (h : c ∈ cs) (rest : List Char) :
    (cs ++ rest).takeWhile (· ≠ c) = cs.takeWhile (· ≠ c) := by
  induction cs with
  | nil => cases h
  | cons d cs ih =>
    rw [List.cons_append, List.takeWhile_cons, List.takeWhile_cons]
    split
    · rename_i hd
      have hne : d ≠ c := by simpa using hd
      rw [ih ((List.mem_cons.mp h).resolve_left hne.symm)]
    · rfl

theorem isUpper_of_bracketed (h : HostForm host) (hcolon : ':' ∈ host.toList) :
    ∀ c ∈ host.toList, c.isUpper = false := by
  obtain ⟨address, hhost, haddress⟩ := h.bracketed hcolon
  intro c hc
  rw [hhost] at hc
  rcases List.mem_append.mp hc with hc | hc
  · rcases List.mem_cons.mp hc with rfl | hc
    · rfl
    · exact isUpper_of_isIPv6Char (haddress c hc)
  · obtain rfl := List.mem_singleton.mp hc
    rfl

theorem beforeColon_of_bracketed (h : HostForm host) (hcolon : ':' ∈ host.toList) :
    ∃ address : List Char, beforeColon host = '[' :: address ∧ ∀ c ∈ address, isIPv6Char c := by
  obtain ⟨address, hhost, haddress⟩ := h.bracketed hcolon
  have hmem : ':' ∈ address := by
    rw [hhost] at hcolon
    simpa using hcolon
  refine ⟨address.takeWhile (· ≠ ':'), ?_, fun c hc =>
    haddress c ((List.takeWhile_sublist _).subset hc)⟩
  rw [beforeColon, hhost, takeWhile_append_of_mem (List.mem_cons_of_mem _ hmem),
    List.takeWhile_cons_of_pos (by decide)]

theorem normalizeHost_of_bracketed (h : HostForm host) (hcolon : ':' ∈ host.toList) :
    normalizeHost host = String.ofList (beforeColon host) := by
  obtain ⟨address, hcut, -⟩ := beforeColon_of_bracketed h hcolon
  rw [normalizeHost_eq h.spaceless, toLowerCase_eq_self (isUpper_of_bracketed h hcolon),
    ← beforeColon, hcut, dropWww_of_not]
  intro hpre
  cases (List.cons_prefix_cons.mp hpre).1

theorem normalizeHost_eq_self (hspace : ∀ c ∈ host.toList, isWhiteSpace c = false)
    (hlower : ∀ c ∈ host.toList, c.isUpper = false) (hcolon : ':' ∉ host.toList)
    (hbare : ¬ "www.".toList <+: host.toList) : normalizeHost host = host := by
  rw [normalizeHost_eq_bareHost hspace hcolon, bareHost, toLowerCase_eq_self hlower,
    dropWww_of_not hbare, String.ofList_toList]

theorem hostOfCandidate_eq (candidate : String) : hostOfCandidate newURL candidate =
    ((newURL candidate).filter fun u => u.hostname ≠ "").map fun u => normalizeHost u.hostname := by
  rw [hostOfCandidate]
  cases newURL candidate with
  | none => rfl
  | some u => by_cases hne : u.hostname = "" <;> simp [Option.filter, hne]

theorem findSome?_hostOfCandidate (candidates : List String) :
    candidates.findSome? (hostOfCandidate newURL) =
      (candidates.findSome? fun candidate =>
        (newURL candidate).filter fun u => u.hostname ≠ "").map
          fun u => normalizeHost u.hostname := by
  rw [List.map_findSome?]
  exact congrArg (candidates.findSome? ·) (funext hostOfCandidate_eq)

theorem extractAcceptorHost_eq_ok {input : String} (h : extractAcceptorHost newURL input = .ok host) :
    ∃ u, acceptorURL newURL input = some u ∧ u.hostname ≠ "" ∧ (∃ s, newURL s = some u) ∧
      host = normalizeHost u.hostname := by
  rw [extractAcceptorHost, findSome?_hostOfCandidate] at h
  split at h
  · cases h
  · split at h
    · rename_i hfind
      obtain ⟨u, hu, rfl⟩ := Option.map_eq_some_iff.mp hfind
      obtain ⟨candidate, -, hcandidate⟩ := List.exists_of_findSome?_eq_some hu
      obtain ⟨hparsed, hne⟩ := Option.filter_eq_some_iff.mp hcandidate
      exact ⟨u, hu, of_decide_eq_true hne, ⟨candidate, hparsed⟩, (Except.ok.inj h).symm⟩
    · cases h

theorem isHost_of_special (h : newURL s = some u) (hspecial : u.special) (hne : u.hostname ≠ "") :
    IsHost newURL u.hostname := ⟨hne, s, u, h, hspecial, rfl⟩

theorem bareHost_cases (host : String) :
    (∃ rest, toLowerCase host = "www." ++ rest ∧ bareHost host = rest) ∨
      ¬ "www.".toList <+: (toLowerCase host).toList ∧ bareHost host = toLowerCase host := by
  by_cases hpre : "www.".toList <+: (toLowerCase host).toList
  · obtain ⟨rest, hrest⟩ := hpre
    refine .inl ⟨String.ofList rest, ?_, ?_⟩
    · rw [← String.toList_inj, ← hrest]
      simp
    · rw [bareHost, ← hrest, dropWww_append]
  · exact .inr ⟨hpre, by rw [bareHost, dropWww_of_not hpre, String.ofList_toList]⟩

theorem rejected_of_bracketed (hw : Whatwg newURL) (h : HostForm host) (hcolon : ':' ∈ host.toList) :
    newURL ("https://" ++ normalizeHost host ++ "/") = none := by
  obtain ⟨address, hcut, haddress⟩ := beforeColon_of_bracketed h hcolon
  have hrest : "https://" ++ normalizeHost host ++ "/" =
      "https://[" ++ String.ofList (address ++ ['/']) := by
    rw [normalizeHost_of_bracketed h hcolon, hcut, ← String.toList_inj]
    simp
  have absent {c : Char} (hc : isIPv6Char c = false) (hne : c ≠ '/') :
      c ∉ (String.ofList (address ++ ['/'])).toList := by
    rw [String.toList_ofList]
    intro hmem
    rcases List.mem_append.mp hmem with hmem | hmem
    · rw [haddress c hmem] at hc
      cases hc
    · exact hne (List.mem_singleton.mp hmem)
  rw [hrest]
  exact hw.unclosed (absent rfl (by decide)) (absent rfl (by decide))

theorem normalForm_of_isHost (hw : Whatwg newURL) (h : IsHost newURL host)
    (hcolon : ':' ∉ host.toList) (hbare : ¬ "www.".toList <+: host.toList) :
    NormalForm newURL host := by
  obtain ⟨hne, s, u, hs, hspecial, rfl⟩ := id h
  have hspace := (hw.form hs).spaceless
  have hlower := hw.lower hs hspecial
  have hself := normalizeHost_eq_self hspace hlower hcolon hbare
  have htrip := hw.roundTrip h
  refine ⟨hne, hlower, hcolon, hbare, ?_, ?_⟩
  · have hhttps : newURL ("https://" ++ u.hostname) = some ⟨"https:", u.hostname⟩ := by
      simpa using htrip "" List.mem_cons_self
    simp [extractAcceptorHost, trim_eq_self hspace, hne, hostOfCandidate, hw.scheme hcolon, hhttps,
      hself]
  · rw [safeHost, htrip "/" (by simp), Option.map_some, hself]

theorem isHost_of_normalForm (hw : Whatwg newURL) (h : NormalForm newURL host) :
    IsHost newURL host := by
  obtain ⟨v, hv, hhost⟩ := Option.map_eq_some_iff.mp h.recognised
  have hspecial : v.special := by
    rw [String.append_assoc] at hv
    rw [URL.special, hw.https hv]
    decide
  have hne : v.hostname ≠ "" := fun hempty => h.nonempty (by rw [← hhost, hempty]; rfl)
  have hknown := isHost_of_special hv hspecial hne
  by_cases hcolon : ':' ∈ v.hostname.toList
  · have hnone := rejected_of_bracketed hw (hw.form hv) hcolon
    rw [hhost] at hnone
    cases hnone.symm.trans hv
  · rw [normalizeHost_eq_bareHost (hw.form hv).spaceless hcolon] at hhost
    rcases bareHost_cases v.hostname with ⟨rest, hrest, hbare⟩ | ⟨-, hbare⟩
    · rw [toLowerCase_eq_self (hw.lower hv hspecial)] at hrest
      obtain rfl := hbare.symm.trans hhost
      exact hw.label h.nonempty (hrest ▸ hknown)
    · rw [toLowerCase_eq_self (hw.lower hv hspecial)] at hbare
      exact hbare.symm.trans hhost ▸ hknown

theorem bareHost_of_www (h : toLowerCase host = "www.") : bareHost host = "" := by
  rw [bareHost, h]
  decide

theorem bareHost_ne_empty (hne : host ≠ "") (hwww : toLowerCase host ≠ "www.") :
    bareHost host ≠ "" := by
  rcases bareHost_cases host with ⟨rest, hrest, hbare⟩ | ⟨-, hbare⟩
  · rw [hbare]
    rintro rfl
    exact hwww hrest
  · rw [hbare]
    intro hempty
    have hnil : (toLowerCase host).toList = [] := by rw [hempty]; rfl
    rw [toList_toLowerCase, List.map_eq_nil_iff] at hnil
    exact hne (String.toList_inj.mp hnil)

theorem www_prefix_bareHost (host : String) : "www.".toList <+: (bareHost host).toList ↔
    "www.www.".toList <+: (toLowerCase host).toList := by
  have hwww : "www.www.".toList = "www.".toList ++ "www.".toList := rfl
  rcases bareHost_cases host with ⟨rest, hrest, hbare⟩ | ⟨hnot, hbare⟩
  · rw [hbare, hrest, String.toList_append, hwww, List.prefix_append_right_inj]
  · rw [hbare, hwww]
    exact iff_of_false hnot fun hpre => hnot ((List.prefix_append _ _).trans hpre)

theorem isHost_bareHost (hw : Whatwg newURL) (hs : newURL s = some u) (hne : u.hostname ≠ "")
    (h : Nameable newURL u) : IsHost newURL (bareHost u.hostname) := by
  obtain ⟨-, hwww, -, hopaque⟩ := h
  cases hspecial : u.special with
  | false => exact hopaque hspecial
  | true =>
    have hknown := isHost_of_special hs hspecial hne
    have hlower := toLowerCase_eq_self (hw.lower hs hspecial)
    rcases bareHost_cases u.hostname with ⟨rest, hrest, hbare⟩ | ⟨-, hbare⟩
    · have hrest' : rest ≠ "" := hbare ▸ bareHost_ne_empty hne hwww
      rw [hbare]
      exact hw.label hrest' (hrest ▸ hlower.symm ▸ hknown)
    · rw [hbare, hlower]
      exact hknown

theorem nameable_of_normalForm (hw : Whatwg newURL) (hs : newURL s = some u)
    (h : NormalForm newURL (normalizeHost u.hostname)) : Nameable newURL u := by
  have hform := hw.form hs
  by_cases hcolon : ':' ∈ u.hostname.toList
  · obtain ⟨v, hv, -⟩ := Option.map_eq_some_iff.mp h.recognised
    exact absurd (hv.symm.trans (rejected_of_bracketed hw hform hcolon)) (Option.some_ne_none v)
  · rw [normalizeHost_eq_bareHost hform.spaceless hcolon] at h
    refine ⟨hcolon, fun hwww => h.nonempty (bareHost_of_www hwww), ?_,
      fun _ => isHost_of_normalForm hw h⟩
    rw [← www_prefix_bareHost]
    exact h.bare

theorem mem_bareHost {c : Char} (hc : c.isAlpha = false) (h : c ∈ (bareHost host).toList) :
    c ∈ host.toList := by
  rw [bareHost, String.toList_ofList] at h
  exact (mem_toLowerCase hc).mp ((dropWww_sublist _).subset h)

theorem normalForm_of_nameable (hw : Whatwg newURL) (hs : newURL s = some u)
    (hne : u.hostname ≠ "") (h : Nameable newURL u) :
    NormalForm newURL (normalizeHost u.hostname) := by
  rw [normalizeHost_eq_bareHost (hw.form hs).spaceless h.1]
  refine normalForm_of_isHost hw (isHost_bareHost hw hs hne h) ?_ ?_
  · exact fun hc => h.1 (mem_bareHost rfl hc)
  · rw [www_prefix_bareHost]
    exact h.2.2.1

/-- What `extractAcceptorHost` makes of an input is in normal form exactly when the host of its URL
is no IPv6 address, not just `www.`, and does not start with `www.` twice; an opaque host also has to
be one of an http URL. -/
theorem extractAcceptorHost_normal_iff (hw : Whatwg newURL) {input : String}
    (hok : extractAcceptorHost newURL input = .ok host) :
    NormalForm newURL host ↔ ∃ u, acceptorURL newURL input = some u ∧ Nameable newURL u := by
  obtain ⟨u, hu, hne, ⟨s, hs⟩, hhost⟩ := extractAcceptorHost_eq_ok hok
  rw [hhost]
  constructor
  · intro h
    exact ⟨u, hu, nameable_of_normalForm hw hs h⟩
  · rintro ⟨v, hv, hname⟩
    obtain rfl := Option.some.inj (hu.symm.trans hv)
    exact normalForm_of_nameable hw hs hne hname

theorem bareHost_of_bracketed (h : HostForm host) (hcolon : ':' ∈ host.toList) :
    bareHost host = host := by
  obtain ⟨address, hhost, -⟩ := h.bracketed hcolon
  rw [bareHost, toLowerCase_eq_self (isUpper_of_bracketed h hcolon), dropWww_of_not,
    String.ofList_toList]
  rw [hhost]
  intro hpre
  cases (List.cons_prefix_cons.mp hpre).1

theorem bracketed_ne_name {host' : String} (h : HostForm host) (hcolon : ':' ∈ host.toList)
    (h' : HostForm host') (hcolon' : ':' ∉ host'.toList) :
    normalizeHost host ≠ normalizeHost host' ∧ bareHost host ≠ bareHost host' := by
  constructor
  · intro heq
    obtain ⟨address, hcut, -⟩ := beforeColon_of_bracketed h hcolon
    rw [normalizeHost_of_bracketed h hcolon, hcut,
      normalizeHost_eq_bareHost h'.spaceless hcolon'] at heq
    have hmem : '[' ∈ (bareHost host').toList := by
      rw [← heq, String.toList_ofList]
      exact List.mem_cons_self
    exact h'.unbracketed hcolon' (mem_bareHost rfl hmem)
  · intro heq
    rw [bareHost_of_bracketed h hcolon] at heq
    exact hcolon' (mem_bareHost rfl (heq ▸ hcolon))

theorem ne_empty_of_mem {c : Char} (h : c ∈ host.toList) : host ≠ "" := by
  rintro rfl
  cases h

/-- The test on the normalised hosts is right about two hosts that are tellable, and wrong about all
others. -/
theorem normalizeHost_test_iff {host' : String} (h : HostForm host) (h' : HostForm host') :
    ((normalizeHost host ≠ "" ∧ normalizeHost host = normalizeHost host') ↔
      bareHost host = bareHost host') ↔ Tellable host host' := by
  by_cases hcolon : ':' ∈ host.toList <;> by_cases hcolon' : ':' ∈ host'.toList
  · have hne : normalizeHost host ≠ "" := by
      obtain ⟨address, hcut, -⟩ := beforeColon_of_bracketed h hcolon
      rw [normalizeHost_of_bracketed h hcolon, hcut]
      exact ne_empty_of_mem (c := '[') (by rw [String.toList_ofList]; exact List.mem_cons_self)
    have hbare : bareHost host ≠ "" := by
      rw [bareHost_of_bracketed h hcolon]
      exact ne_empty_of_mem hcolon
    have hcut : normalizeHost host = normalizeHost host' ↔ beforeColon host = beforeColon host' := by
      rw [normalizeHost_of_bracketed h hcolon, normalizeHost_of_bracketed h' hcolon',
        String.ofList_inj]
    rw [and_iff_right hne, hcut, bareHost_of_bracketed h hcolon, bareHost_of_bracketed h' hcolon']
    constructor
    · exact fun hiff => ⟨fun hempty => hbare hempty.1, fun _ _ heq => hiff.mp heq⟩
    · exact fun htell => ⟨htell.2 hcolon hcolon', fun heq => by rw [heq]⟩
  · obtain ⟨hne, hne'⟩ := bracketed_ne_name h hcolon h' hcolon'
    refine iff_of_true (iff_of_false (fun heq => hne heq.2) hne') ⟨fun hempty => ?_, fun _ hc => ?_⟩
    · exact hne' (hempty.1.trans hempty.2.symm)
    · exact absurd hc hcolon'
  · obtain ⟨hne, hne'⟩ := bracketed_ne_name h' hcolon' h hcolon
    refine iff_of_true (iff_of_false (fun heq => hne heq.2.symm) fun heq => hne' heq.symm)
      ⟨fun hempty => ?_, fun hc => absurd hc hcolon⟩
    exact hne' (hempty.2.trans hempty.1.symm)
  · rw [normalizeHost_eq_bareHost h.spaceless hcolon, normalizeHost_eq_bareHost h'.spaceless hcolon']
    constructor
    · exact fun hiff => ⟨fun hempty => (hiff.mpr (hempty.1.trans hempty.2.symm)).1 hempty.1,
        fun hc => absurd hc hcolon⟩
    · exact fun htell => ⟨And.right, fun heq => ⟨fun hempty => htell.1 ⟨hempty, heq ▸ hempty⟩, heq⟩⟩

def knownURL (hosts : List String) : UrlParser := fun s =>
  if "https://".toList.isPrefixOf s.toList then
    let host := String.ofList ((s.toList.drop 8).takeWhile (· ≠ '/'))
    if host ∈ hosts then some ⟨"https:", host⟩ else none
  else none

structure KnownHosts (hosts : List String) : Prop where
  form : ∀ host ∈ hosts, HostForm host
  lower : ∀ host ∈ hosts, ∀ c ∈ host.toList, c.isUpper = false
  pathless : ∀ host ∈ hosts, '/' ∉ host.toList
  nonempty : "" ∉ hosts
  label : ∀ host ∈ hosts, "www.".toList <+: host.toList → bareHost host ∈ "" :: hosts

theorem knownURL_eq_some {hosts : List String} (h : knownURL hosts s = some u) :
    u.protocol = "https:" ∧ u.hostname ∈ hosts ∧ ∃ path,
      s.toList = "https://".toList ++ path ∧
        u.hostname = String.ofList (path.takeWhile (· ≠ '/')) := by
  rw [knownURL] at h
  split at h
  · rename_i hpre
    obtain ⟨path, hpath⟩ := List.isPrefixOf_iff_prefix.mp hpre
    have hdrop : s.toList.drop 8 = path := by
      rw [← hpath]
      rfl
    rw [hdrop] at h
    dsimp only at h
    split at h
    · rename_i hmem
      cases h
      exact ⟨rfl, hmem, path, hpath.symm, rfl⟩
    · cases h
  · cases h

theorem knownURL_of_mem {hosts : List String} (hk : KnownHosts hosts) (hmem : host ∈ hosts)
    {slash : String} (hslash : slash ∈ ["", "/"]) :
    knownURL hosts ("https://" ++ host ++ slash) = some ⟨"https:", host⟩ := by
  have hpath : ("https://" ++ host ++ slash).toList =
      "https://".toList ++ (host.toList ++ slash.toList) := by simp
  have hhost : (host.toList ++ slash.toList).takeWhile (· ≠ '/') = host.toList := by
    have hself : host.toList.takeWhile (· ≠ '/') = host.toList := by
      rw [List.takeWhile_eq_self_iff]
      intro c hc
      simp only [decide_eq_true_eq]
      rintro rfl
      exact hk.pathless host hmem hc
    rcases List.mem_cons.mp hslash with rfl | hslash
    · rw [show "".toList = [] from rfl, List.append_nil, hself]
    · obtain rfl := List.mem_singleton.mp hslash
      rw [List.takeWhile_append_of_pos fun c hc => List.takeWhile_eq_self_iff.mp hself c hc]
      simp
  have hdrop : ("https://".toList ++ (host.toList ++ slash.toList)).drop 8 =
      host.toList ++ slash.toList := rfl
  rw [knownURL, hpath, if_pos (List.isPrefixOf_iff_prefix.mpr (List.prefix_append _ _)), hdrop,
    hhost, String.ofList_toList]
  exact if_pos hmem

theorem isHost_knownURL {hosts : List String} (hk : KnownHosts hosts) :
    IsHost (knownURL hosts) host ↔ host ∈ hosts := by
  constructor
  · rintro ⟨-, s, u, hs, -, rfl⟩
    exact (knownURL_eq_some hs).2.1
  · intro hmem
    refine ⟨fun hempty => hk.nonempty (hempty ▸ hmem), _, _,
      knownURL_of_mem hk hmem (List.mem_cons_self (a := "")), rfl, rfl⟩

theorem whatwg_knownURL {hosts : List String} (hk : KnownHosts hosts) : Whatwg (knownURL hosts) where
  form hs := hk.form _ (knownURL_eq_some hs).2.1
  lower hs _ := hk.lower _ (knownURL_eq_some hs).2.1
  scheme hcolon := by
    by_contra hne
    obtain ⟨u, hu⟩ := Option.ne_none_iff_exists'.mp hne
    obtain ⟨-, -, path, hpath, -⟩ := knownURL_eq_some hu
    exact hcolon (hpath ▸ List.mem_append_left _ (by decide))
  https hs := (knownURL_eq_some hs).1
  unclosed := by
    intro s hclose hat
    by_contra hne
    obtain ⟨u, hu⟩ := Option.ne_none_iff_exists'.mp hne
    obtain ⟨-, hmem, path, hpath, hhost⟩ := knownURL_eq_some hu
    have hrest : path = '[' :: s.toList := by
      rw [String.toList_append] at hpath
      have hsplit : "https://".toList ++ '[' :: s.toList = "https://".toList ++ path := hpath
      exact (List.append_cancel_left hsplit).symm
    have hchars : u.hostname.toList = '[' :: s.toList.takeWhile (· ≠ '/') := by
      rw [hhost, String.toList_ofList, hrest, List.takeWhile_cons_of_pos (by decide)]
    have hcolon : ':' ∈ u.hostname.toList := by
      by_contra hcolon
      exact (hk.form _ hmem).unbracketed hcolon (hchars ▸ List.mem_cons_self)
    obtain ⟨address, haddress, -⟩ := (hk.form _ hmem).bracketed hcolon
    have hmem' : ']' ∈ '[' :: s.toList.takeWhile (· ≠ '/') := by
      rw [← hchars, haddress]
      simp
    exact hclose ((List.takeWhile_sublist _).subset
      ((List.mem_cons.mp hmem').resolve_left (by decide)))
  roundTrip hhost _ hslash := knownURL_of_mem hk ((isHost_knownURL hk).mp hhost) hslash
  label := by
    intro rest hrest hhost
    rw [isHost_knownURL hk] at hhost ⊢
    have hbare : bareHost ("www." ++ rest) = rest := by
      rw [bareHost, toLowerCase_eq_self (hk.lower _ hhost), String.toList_append, dropWww_append,
        String.ofList_toList]
    have hmem := hk.label _ hhost (by rw [String.toList_append]; exact List.prefix_append _ _)
    rw [hbare] at hmem
    exact (List.mem_cons.mp hmem).resolve_left hrest

def exampleHosts : List String := ["www.acceptor.example", "acceptor.example"]

def isNameChar (c : Char) : Bool :=
  ('a' ≤ c && c ≤ 'z') || ('0' ≤ c && c ≤ '9') || c = '.' || c = '-'

theorem of_isNameChar {c : Char} (h : isNameChar c) :
    isWhiteSpace c = false ∧ c.isUpper = false ∧ c ∉ [':', '[', '/'] := by
  have hrange : 97 ≤ c.toNat ∧ c.toNat ≤ 122 ∨ 45 ≤ c.toNat ∧ c.toNat ≤ 57 ∧ c.toNat ≠ 47 := by
    simp only [isNameChar, Bool.or_eq_true, Bool.and_eq_true, decide_eq_true_eq] at h
    rcases h with ((⟨hlow, hhigh⟩ | ⟨hlow, hhigh⟩) | rfl) | rfl
    · exact .inl ⟨Char.le_def.mp hlow, Char.le_def.mp hhigh⟩
    · have hlow' : 48 ≤ c.toNat := Char.le_def.mp hlow
      have hhigh' : c.toNat ≤ 57 := Char.le_def.mp hhigh
      exact .inr ⟨by omega, hhigh', by omega⟩
    · exact .inr (by decide)
    · exact .inr (by decide)
  refine ⟨?_, ?_, ?_⟩
  · simp only [isWhiteSpace, List.mem_cons, List.not_mem_nil, or_false, Bool.or_eq_false_iff,
      decide_eq_false_iff_not, Bool.and_eq_false_iff]
    omega
  · rw [Char.isUpper, decide_eq_false_iff_not]
    rintro ⟨hlow, hhigh⟩
    have hlow' : 65 ≤ c.toNat := hlow
    have hhigh' : c.toNat ≤ 90 := hhigh
    omega
  · simp only [List.mem_cons, List.not_mem_nil, or_false]
    rintro (rfl | rfl | rfl) <;> revert hrange <;> decide

theorem KnownHosts.of_names {hosts : List String} (hnonempty : "" ∉ hosts)
    (hname : hosts.all fun host => host.toList.all isNameChar)
    (hlabel : ∀ host ∈ hosts, "www.".toList <+: host.toList → bareHost host ∈ "" :: hosts) :
    KnownHosts hosts := by
  have chars : ∀ host ∈ hosts, ∀ c ∈ host.toList,
      isWhiteSpace c = false ∧ c.isUpper = false ∧ c ∉ [':', '[', '/'] := fun host hhost c hc =>
    of_isNameChar (List.all_eq_true.mp (List.all_eq_true.mp hname host hhost) c hc)
  refine ⟨fun host hhost => ⟨fun c hc => (chars host hhost c hc).1, fun hcolon => ?_,
    fun _ hbracket => ?_⟩, fun host hhost c hc => (chars host hhost c hc).2.1,
    fun host hhost hslash => ?_, hnonempty, hlabel⟩
  · exact absurd (by decide) (chars host hhost ':' hcolon).2.2
  · exact absurd (by decide) (chars host hhost '[' hbracket).2.2
  · exact absurd (by decide) (chars host hhost '/' hslash).2.2

theorem knownHosts_example : KnownHosts exampleHosts :=
  .of_names (by decide) (by decide) (by decide)

theorem extractAcceptorHost_normal_sample :
    NormalForm (knownURL exampleHosts) "acceptor.example" := by
  have hok : extractAcceptorHost (knownURL exampleHosts) "https://www.acceptor.example/page?utm=1" =
      .ok "acceptor.example" := by decide +kernel
  refine (extractAcceptorHost_normal_iff (whatwg_knownURL knownHosts_example) hok).mpr
    ⟨⟨"https:", "www.acceptor.example"⟩, by decide +kernel, by decide, by decide, by decide, ?_⟩
  intro hspecial
  cases hspecial

def addressHosts : List String := ["[2001:db8::1]", "[2001:db8::2]"]

theorem knownHosts_address : KnownHosts addressHosts where
  form := by
    simp only [addressHosts, List.forall_mem_cons]
    refine ⟨⟨?_, fun _ => ⟨"2001:db8::1".toList, rfl, ?_⟩, fun hcolon => absurd (by decide) hcolon⟩,
      ⟨?_, fun _ => ⟨"2001:db8::2".toList, rfl, ?_⟩, fun hcolon => absurd (by decide) hcolon⟩, ?_⟩
    · simpa using (by decide : "[2001:db8::1]".toList.all fun c => !isWhiteSpace c)
    · simpa using (by decide : "2001:db8::1".toList.all isIPv6Char)
    · simpa using (by decide : "[2001:db8::2]".toList.all fun c => !isWhiteSpace c)
    · simpa using (by decide : "2001:db8::2".toList.all isIPv6Char)
    · simp
  lower := by simp [addressHosts]
  pathless := by decide
  nonempty := by decide
  label := by decide

/-- The brackets of an address are cut open. -/
theorem address_cut_open : ∃ newURL, Whatwg newURL ∧
    extractAcceptorHost newURL "https://[2001:db8::1]/" = .ok "[2001" ∧
      ¬ NormalForm newURL "[2001" := by
  refine ⟨knownURL addressHosts, whatwg_knownURL knownHosts_address, by decide +kernel, fun h => ?_⟩
  have hnone : safeHost (knownURL addressHosts) "https://[2001/" = none := by decide +kernel
  cases hnone.symm.trans h.recognised

end Laws

end LinkBulker.Shared
