import LinkBulker.Api.Auth
import LinkBulker.Backend.Tenants

/-! The backend behind its sign-in: who a request comes from is what its cookie says. -/

namespace LinkBulker.Backend

open Foundations Db Shared Services
open Auth (Crypto User SessionUser canActivate)

structure Site (newURL : UrlParser) where
  backend : State newURL
  users : Table User.id
  cookies : List String := []

variable {newURL : UrlParser}

def Site.start (users : Table User.id) (db : Database) (locks : String → LockManager.Key)
    (clock : ℤ) : Site newURL where
  backend := .start db locks clock
  users := users

inductive Ask (newURL : UrlParser)
  | startManualCheck (projectId : ProjectId)
  | recheckOne (linkId : LinkId)
  | runNow (taskId : SheetsTaskId)
  | row (op : RowRequests.Op newURL)
  | createTask (projectId : ProjectId) (dto : CreateSheetsTaskInput)
  | updateTask (taskId : SheetsTaskId) (dto : UpdateSheetsTaskInput)
  | removeTask (taskId : SheetsTaskId)
  | removeProject (projectId : ProjectId)

def Ask.label (userId : UserId) : Ask newURL → Label newURL
  | .startManualCheck projectId => .dispatch (.ask (.startManualCheck userId projectId))
  | .recheckOne linkId => .dispatch (.ask (.recheckOne userId linkId))
  | .runNow taskId => .dispatch (.ask (.runNow userId taskId))
  | .row op => .row userId op
  | .createTask projectId dto => .task (.create userId projectId dto)
  | .updateTask taskId dto => .task (.update userId taskId dto)
  | .removeTask taskId => .task (.remove userId taskId)
  | .removeProject projectId => .task (.removeProject userId projectId)

theorem user_label (userId : UserId) (ask : Ask newURL) : (ask.label userId).user = some userId := by
  cases ask <;> rfl

/-- The seed script runs, somebody logs in or out, a request comes in with a cookie, or the backend
goes on by itself. -/
inductive Action (newURL : UrlParser)
  | seed (email passwordHash : String) (cuid : UserId)
  | login (email password : String)
  | logout
  | request (cookie : Option String) (ask : Ask newURL)
  | work (l : Label newURL)

/-- `logout` clears the cookie in the browser and nothing here. -/
def Site.step (crypto : Crypto) (clock : Sheets.LocalClock) (s : Site newURL) :
    Action newURL → Option (Site newURL)
  | .seed email passwordHash cuid =>
    some { s with users := Auth.seed s.users email passwordHash cuid }
  | .login email password =>
    match Auth.login crypto s.users email password with
    | .error _ => some s
    | .ok user => some { s with cookies := s.cookies ++ [crypto.sign user.id] }
  | .logout => some s
  | .request cookie ask =>
    match canActivate crypto s.users cookie with
    | .error _ => some s
    | .ok user => (Backend.step clock s.backend (ask.label user.id)).map fun backend =>
      { s with backend }
  | .work l =>
    if l.user = none then (Backend.step clock s.backend l).map fun backend => { s with backend }
    else none

/-- A cookie with a good signature is one that a login has set. -/
def Unforged (crypto : Crypto) (s : Site newURL) : Action newURL → Prop
  | .request cookie _ => ∀ raw ∈ cookie, (crypto.unsign raw).isSome → raw ∈ s.cookies
  | _ => True

instance (crypto : Crypto) (s : Site newURL) : (a : Action newURL) → Decidable (Unforged crypto s a)
  | .request cookie _ => inferInstanceAs (Decidable (∀ raw ∈ cookie, _ → _))
  | .seed .. | .login .. | .logout | .work _ => .isTrue trivial

variable {crypto : Crypto} {clock : Sheets.LocalClock} {users : Table User.id} {db : Database}
  {locks : String → LockManager.Key} {time : ℤ} {actions : List (Action newURL)}
  {s s' : Site newURL} {a : Action newURL}

def LoggedIn (crypto : Crypto) (clock : Sheets.LocalClock) (s₀ : Site newURL)
    (actions : List (Action newURL)) (userId : UserId) : Prop :=
  ∃ before email password after, actions = before ++ .login email password :: after ∧
    ∃ s, exec (Site.step crypto clock) s₀ before = some s ∧ ∃ u ∈ s.users.rows, u.id = userId ∧
      u.email = email ∧ crypto.compare password u.passwordHash

theorem LoggedIn.append {s₀ : Site newURL} {userId : UserId}
    (h : LoggedIn crypto clock s₀ actions userId) (a : Action newURL) :
    LoggedIn crypto clock s₀ (actions ++ [a]) userId := by
  obtain ⟨before, email, password, after, rfl, h⟩ := h
  exact ⟨before, email, password, after ++ [a], by simp, h⟩

structure SignedIn (crypto : Crypto) (clock : Sheets.LocalClock) (s₀ : Site newURL)
    (actions : List (Action newURL)) (s : Site newURL) : Prop where
  reached : exec (Site.step crypto clock) s₀ actions = some s
  cookies : ∀ raw ∈ s.cookies, ∃ userId, raw = crypto.sign userId ∧
    LoggedIn crypto clock s₀ actions userId
  guarded : Guarded (fun l => ∀ u, l.user = some u → LoggedIn crypto clock s₀ actions u) s.backend
  others : ∀ v, ¬ LoggedIn crypto clock s₀ actions v → own v s.backend.world.db = own v s₀.backend.world.db

theorem SignedIn.start (hc : db.Consistent) (hs : ∀ l ∈ db.links.rows, Sourced l) :
    SignedIn crypto clock (.start users db locks time : Site newURL) [] (.start users db locks time)
    where
  reached := rfl
  cookies _ hraw := absurd hraw List.not_mem_nil
  guarded := Guarded.start hc hs
  others _ _ := rfl

theorem SignedIn.served {s₀ : Site newURL} (h : SignedIn crypto clock s₀ actions s)
    {cookie : Option String} {ask : Ask newURL} (hu : Unforged crypto s (.request cookie ask))
    {user : SessionUser} (hserved : canActivate crypto s.users cookie = .ok user) :
    cookie = some (crypto.sign user.id) ∧ LoggedIn crypto clock s₀ actions user.id := by
  obtain ⟨raw, rfl, -, hunsign, -, -⟩ := Auth.canActivate_eq_ok.mp hserved
  obtain ⟨userId, rfl, hlogged⟩ := h.cookies raw (hu raw rfl (Option.isSome_of_mem hunsign))
  rw [crypto.unsign_sign] at hunsign
  obtain rfl := Option.some.inj hunsign
  exact ⟨rfl, hlogged⟩

theorem SignedIn.worked {s₀ : Site newURL} {t : State newURL} {l : Label newURL}
    (h : SignedIn crypto clock s₀ actions s) (hstep : s.step crypto clock a = some { s with backend := t })
    (hl : ∀ u, l.user = some u → LoggedIn crypto clock s₀ actions u)
    (hs : Backend.step clock s.backend l = some t) :
    SignedIn crypto clock s₀ (actions ++ [a]) { s with backend := t } := by
  obtain ⟨hguarded, u, hwithin, hpresent⟩ := h.guarded.step
    (fun _ hasked u hu => (hasked u hu).append a) (fun u hu => (hl u hu).append a) hs
  refine ⟨exec_concat.mpr ⟨s, h.reached, hstep⟩, fun raw hraw => ?_, hguarded, fun v hv => ?_⟩
  · obtain ⟨userId, hsign, hlogged⟩ := h.cookies raw hraw
    exact ⟨userId, hsign, hlogged.append a⟩
  · rw [← h.others v fun hlogged => hv (hlogged.append a)]
    obtain ⟨l', hasked, hu⟩ | hdb := hpresent
    · have hne : (u == v) = false := by
        rw [beq_eq_false_iff_ne]
        rintro rfl
        exact hv (hasked u hu)
      exact hwithin.others (· == v) hne
    · rw [hdb]

theorem SignedIn.rested {s₀ : Site newURL} (h : SignedIn crypto clock s₀ actions s)
    (hstep : s.step crypto clock a = some s') (hbackend : s'.backend = s.backend)
    (hcookies : ∀ raw ∈ s'.cookies, raw ∈ s.cookies ∨ ∃ userId, raw = crypto.sign userId ∧
      LoggedIn crypto clock s₀ (actions ++ [a]) userId) :
    SignedIn crypto clock s₀ (actions ++ [a]) s' := by
  refine ⟨exec_concat.mpr ⟨s, h.reached, hstep⟩, fun raw hraw => ?_, ?_, fun v hv => ?_⟩
  · obtain hold | hnew := hcookies raw hraw
    · obtain ⟨userId, hsign, hlogged⟩ := h.cookies raw hold
      exact ⟨userId, hsign, hlogged.append a⟩
    · exact hnew
  · rw [hbackend]
    have hsame : ({ s.backend with
        world := s.backend.world, given := s.backend.given ++ [] } : State newURL) = s.backend := by
      rw [List.append_nil]
    rw [← hsame]
    exact h.guarded.carry (fun _ hasked u hu => (hasked u hu).append a)
      (fun _ hid => absurd hid List.not_mem_nil) (v := "") (.refl h.guarded.tidy)
  · rw [hbackend]
    exact h.others v fun hlogged => hv (hlogged.append a)

theorem SignedIn.step {s₀ : Site newURL} (h : SignedIn crypto clock s₀ actions s)
    (hu : Unforged crypto s a) (hs : s.step crypto clock a = some s') :
    SignedIn crypto clock s₀ (actions ++ [a]) s' := by
  cases a with
  | seed email passwordHash cuid =>
    have hstep := hs
    cases hs
    exact h.rested hstep rfl fun raw hraw => .inl hraw
  | logout =>
    have hstep := hs
    cases hs
    exact h.rested hstep rfl fun raw hraw => .inl hraw
  | login email password =>
    have hstep := hs
    simp only [Site.step] at hs
    split at hs
    · cases hs
      exact h.rested hstep rfl fun raw hraw => .inl hraw
    · rename_i user hlogin
      cases hs
      refine h.rested hstep rfl fun raw hraw => ?_
      obtain hold | hnew := List.mem_append.mp hraw
      · exact .inl hold
      · obtain ⟨u, hmem, hemail, hcompare, rfl⟩ := Auth.login_eq_ok hlogin
        exact .inr ⟨u.id, List.mem_singleton.mp hnew, actions, email, password, [], rfl, s, h.reached,
          u, hmem, rfl, hemail, hcompare⟩
  | request cookie ask =>
    have hstep := hs
    simp only [Site.step] at hs
    split at hs
    · cases hs
      exact h.rested hstep rfl fun raw hraw => .inl hraw
    · rename_i user hserved
      obtain ⟨t, ht, rfl⟩ := Option.map_eq_some_iff.mp hs
      refine h.worked hstep (fun u hu' => ?_) ht
      rw [user_label] at hu'
      obtain rfl := Option.some.inj hu'
      exact (h.served hu hserved).2
  | work l =>
    have hstep := hs
    simp only [Site.step] at hs
    split at hs
    · rename_i hnone
      obtain ⟨t, ht, rfl⟩ := Option.map_eq_some_iff.mp hs
      refine h.worked hstep (fun u hu' => ?_) ht
      rw [hnone] at hu'
      cases hu'
    · cases hs

theorem signedIn_of_exec (hc : db.Consistent) (hs : ∀ l ∈ db.links.rows, Sourced l)
    (hu : Meets (Site.step crypto clock) (Unforged crypto) (.start users db locks time) actions)
    (hr : exec (Site.step crypto clock) (.start users db locks time) actions = some s) :
    SignedIn crypto clock (.start users db locks time) actions s :=
  exec_history_of_meets (SignedIn.start hc hs) (fun _ _ _ _ h hu hs => h.step hu hs) hu hr

theorem exists_user_of_exec {s₀ : Site newURL}
    (hr : exec (Site.step crypto clock) s₀ actions = some s) {u : User} (hu : u ∈ s₀.users.rows) :
    ∃ u' ∈ s.users.rows, u'.id = u.id ∧ u'.email = u.email := by
  refine exec_invariant
    (I := fun s => ∃ u' ∈ s.users.rows, u'.id = u.id ∧ u'.email = u.email) ?_ ⟨u, hu, rfl, rfl⟩ hr
  intro s a s' ⟨u₁, hu₁, hid, hemail⟩ hs
  cases a with
  | seed email passwordHash cuid =>
    cases hs
    obtain ⟨u₂, hu₂, hid', hemail'⟩ := Auth.exists_mem_seed email passwordHash cuid hu₁
    exact ⟨u₂, hu₂, hid'.trans hid, hemail'.trans hemail⟩
  | logout =>
    cases hs
    exact ⟨u₁, hu₁, hid, hemail⟩
  | login email password =>
    simp only [Site.step] at hs
    split at hs <;> cases hs <;> exact ⟨u₁, hu₁, hid, hemail⟩
  | request cookie ask =>
    simp only [Site.step] at hs
    split at hs
    · cases hs
      exact ⟨u₁, hu₁, hid, hemail⟩
    · obtain ⟨t, -, rfl⟩ := Option.map_eq_some_iff.mp hs
      exact ⟨u₁, hu₁, hid, hemail⟩
  | work l =>
    simp only [Site.step] at hs
    split at hs
    · obtain ⟨t, -, rfl⟩ := Option.map_eq_some_iff.mp hs
      exact ⟨u₁, hu₁, hid, hemail⟩
    · cases hs

theorem LoggedIn.email {s₀ : Site newURL} {u : User} (hu : u ∈ s₀.users.rows)
    (h : LoggedIn crypto clock s₀ actions u.id) : ∃ password, .login u.email password ∈ actions := by
  obtain ⟨before, email, password, after, rfl, s, hr, u₁, hu₁, hid, rfl, -⟩ := h
  obtain ⟨u₂, hu₂, hid', hemail⟩ := exists_user_of_exec hr hu
  obtain rfl := s.users.eq_of_key_eq hu₂ hu₁ (hid'.trans hid.symm)
  exact ⟨password, by simp [hemail]⟩

section Examples

def signature : List Char := ".mac".toList

def exampleCrypto : Crypto where
  compare password hash := password = hash
  sign value := String.ofList (value.toList ++ signature)
  unsign cookie :=
    if signature <:+ cookie.toList then
      some (String.ofList (cookie.toList.take (cookie.toList.length - signature.length)))
    else none
  unsign_sign value := by simp
  sign_ne_empty value h := by
    have hlist := congrArg String.toList h
    simp [signature] at hlist

def exampleUsers : Table User.id :=
  ⟨[⟨"u", "u@site.example", "secret", .ADMIN⟩, ⟨"v", "v@site.example", "hidden", .USER⟩], by decide⟩

def exampleSite : Site Crawler.exampleURL := .start exampleUsers twoUsers (fun _ => none) 0

def visited : List (Action Crawler.exampleURL) :=
  [.login "v@site.example" "hiden", .login "v@site.example" "hidden", .logout,
    .request (some (exampleCrypto.sign "v")) (.row (.createManualLinks "q" BulkQueue.exampleItems)),
    .work (.serveRow 0 fun _ => "b"), .work (.serveRow 0 fun _ => "b"),
    .request none (.startManualCheck "q")]

abbrev visit (actions : List (Action Crawler.exampleURL)) : Option (Site Crawler.exampleURL) :=
  exec (Site.step exampleCrypto Sheets.exampleClock) exampleSite actions

theorem exists_visited : ∃ s, visit visited = some s ∧
    s.backend.world.db.links.rows.map Link.id = ["a", "b"] :=
  exists_of_any (P := fun s : Site _ => s.backend.world.db.links.rows.map Link.id = ["a", "b"])
    (by decide +kernel)

theorem unforged_visited : Meets (Site.step exampleCrypto Sheets.exampleClock)
    (Unforged exampleCrypto) exampleSite
    (visited ++ [.request (some (exampleCrypto.sign "v")) (.startManualCheck "q")]) := by
  decide +kernel

end Examples

/-- The guard serves a request as a user exactly when it carries the cookie of a login of that user,
whose row is still there: a login never runs out, and a logout takes nothing back. -/
theorem served_iff_logged_in (hc : db.Consistent) (hs : ∀ l ∈ db.links.rows, Sourced l)
    {cookie : Option String} {ask : Ask newURL} {user : SessionUser}
    (hu : Meets (Site.step crypto clock) (Unforged crypto) (.start users db locks time)
      (actions ++ [.request cookie ask]))
    (hr : exec (Site.step crypto clock) (.start users db locks time) actions = some s) :
    canActivate crypto s.users cookie = .ok user ↔
      (∃ u ∈ s.users.rows, u.id ≠ "" ∧ user = u.session) ∧ cookie = some (crypto.sign user.id) ∧
        LoggedIn crypto clock (.start users db locks time) actions user.id := by
  obtain ⟨hbefore, hlast⟩ := Meets.concat.mp hu
  have h := signedIn_of_exec hc hs hbefore hr
  constructor
  · intro hserved
    obtain ⟨raw, rfl, -, -, hid, hrow⟩ := Auth.canActivate_eq_ok.mp hserved
    obtain ⟨u, hfind, rfl⟩ := Option.map_eq_some_iff.mp hrow
    exact ⟨⟨u, (Table.find?_eq_some.mp hfind).1, hid, rfl⟩, h.served (hlast s hr) hserved⟩
  · rintro ⟨⟨u, hmem, hid, rfl⟩, rfl, -⟩
    exact Auth.canActivate_sign hmem hid

theorem served_iff_logged_in_sample : ∃ s, visit visited = some s ∧
    canActivate exampleCrypto s.users (some (exampleCrypto.sign "v")) =
      .ok ⟨"v", "v@site.example", .USER⟩ ∧
    LoggedIn exampleCrypto Sheets.exampleClock exampleSite visited "v" := by
  obtain ⟨s, h, hserved⟩ := exists_of_any
    (P := fun s : Site _ => canActivate exampleCrypto s.users (some (exampleCrypto.sign "v")) =
      .ok ⟨"v", "v@site.example", .USER⟩)
    (s := visit visited) (by decide +kernel)
  obtain ⟨-, -, hlogged⟩ :=
    (served_iff_logged_in twoUsers_consistent twoUsers_sourced unforged_visited h).mp hserved
  exact ⟨s, h, hserved, hlogged⟩

/-- The rows of a user who has not logged in stay as they were, whatever anybody else does. -/
theorem rows_need_a_login (hc : db.Consistent) (hs : ∀ l ∈ db.links.rows, Sourced l)
    (hu : Meets (Site.step crypto clock) (Unforged crypto) (.start users db locks time) actions)
    (hr : exec (Site.step crypto clock) (.start users db locks time) actions = some s)
    {v : UserId} (hv : ¬ LoggedIn crypto clock (.start users db locks time) actions v) :
    own v s.backend.world.db = own v db :=
  (signedIn_of_exec hc hs hu hr).others v hv

theorem rows_need_a_login_sample : ∃ s, visit visited = some s ∧
    s.backend.world.db.links.rows.map Link.id = ["a", "b"] ∧
    own "u" s.backend.world.db = own "u" twoUsers := by
  obtain ⟨s, h, hids⟩ := exists_visited
  refine ⟨s, h, hids, rows_need_a_login twoUsers_consistent twoUsers_sourced
    (Meets.concat.mp unforged_visited).1 h fun hlogged => ?_⟩
  obtain ⟨password, hmem⟩ := LoggedIn.email (u := ⟨"u", "u@site.example", "secret", .ADMIN⟩)
    List.mem_cons_self hlogged
  simp [visited] at hmem

end LinkBulker.Backend
