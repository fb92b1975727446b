import LinkBulker.Foundations.Run
import LinkBulker.Worker.CrawlPool

namespace LinkBulker.Crawler

open Foundations Db Shared

variable {newURL : UrlParser} {o : CrawlerConfig} {w w' : Cluster} {c c' : Call} {t : CrawlTurn}

def Call.token (c : Call) : Option Semaphore.Token :=
  match c.pc with
  | .acquireSent _ _ token | .acquireAnswered _ _ token _ | .scraping _ token | .release token _ =>
    some token
  | _ => none

def Call.ticket (c : Call) : Option (String × ℕ × ℤ) :=
  match c.pc with
  | .consumeAnswered _ wait => if wait ≤ 0 then some (c.host, c.grant) else none
  | .acquire _ | .acquireSent .. | .acquireAnswered .. | .acquireAsleep .. => some (c.host, c.grant)
  | _ => none

inductive Step (o : CrawlerConfig) (w : Cluster) (c : Call) (t : CrawlTurn) : Cluster → Call → Prop
  | quiet {c' : Call} (htoken : c'.token = none ∨ c'.token = c.token)
    (hlease : c'.lease = none ∨ c'.lease = c.lease)
    (hticket : c'.ticket = none ∨ c'.ticket = c.ticket) : Step o w c t w c'
  | consumed {deadline now wait : ℤ} {key : DomainRateLimiter.Key} {c' : Call}
    (hpc : c.pc = .consumeSent deadline now) (hr : t.rejects = false)
    (hlua : DomainRateLimiter.CONSUME_LUA (w.buckets c.host) t.now o.rateLimiter.capacity
      o.rateLimiter.ratePerSec now o.rateLimiter.ttlMs = (wait, key))
    (hok : wait ≤ 0)
    (hc' : c' = { c with
      grant := ((w.grants c.host).length, now), pc := .consumeAnswered deadline wait }) :
    Step o w c t
      { w with
        buckets := Function.update w.buckets c.host key
        grants := Function.update w.grants c.host (w.grants c.host ++ [now]) } c'
  | refused {deadline now wait : ℤ} {key : DomainRateLimiter.Key}
    (hpc : c.pc = .consumeSent deadline now) (hr : t.rejects = false)
    (hlua : DomainRateLimiter.CONSUME_LUA (w.buckets c.host) t.now o.rateLimiter.capacity
      o.rateLimiter.ratePerSec now o.rateLimiter.ttlMs = (wait, key))
    (hno : ¬ wait ≤ 0) :
    Step o w c t { w with buckets := Function.update w.buckets c.host key }
      (c.at_ (.consumeAnswered deadline wait))
  | drawn {deadline : ℤ} (hpc : c.pc = .acquire deadline) (hfresh : t.token ∉ w.issued) :
    Step o w c t { w with issued := t.token :: w.issued }
      (c.at_ (.acquireSent deadline t.now t.token))
  | acquired {deadline now : ℤ} {token : Semaphore.Token} {n : ℕ} {key : Semaphore.Key}
    (hpc : c.pc = .acquireSent deadline now token) (hr : t.rejects = false)
    (hlua : Semaphore.ACQUIRE_LUA w.sem t.now now o.semaphore.ttlMs o.semaphore.limit token =
      (n, key)) :
    Step o w c t { w with sem := key } (c.at_ (.acquireAnswered deadline now token (n == 1)))
  | scrape {deadline now : ℤ} {token : Semaphore.Token}
    (hpc : c.pc = .acquireAnswered deadline now token true) (hr : t.rejects = false)
    (hbreaker : t.breakerOpen = false) :
    Step o w c t { w with scrapes := w.scrapes ++ [⟨c.host, c.grant.1, c.grant.2, t.now⟩] }
      (c.at_ (.scraping now token))
  | released {token : Semaphore.Token} {result : CrawlAndAnalyzeResult}
    (hpc : c.pc = .release token result) :
    Step o w c t { w with sem := (Semaphore.RELEASE_LUA w.sem t.now token).2 }
      (c.at_ (.done result))

theorem Step.fail (run : CrawlRun) : Step o w c t w (c.fail t run) :=
  .quiet (.inl rfl) (.inl rfl) (.inl rfl)

theorem move_eq_some (h : c.move newURL o w t = some (w', c')) : Step o w c t w' c' := by
  unfold Call.move at h
  split at h
  case h_1 hpc =>
    split at h <;> cases h <;> exact .quiet (.inl rfl) (.inl rfl) (.inl rfl)
  case h_2 hpc => cases h; exact .quiet (.inl rfl) (.inl rfl) (.inl rfl)
  case h_3 hpc =>
    split at h
    · cases h; exact .fail _
    · rename_i hr
      rw [Bool.not_eq_true] at hr
      simp only at h
      split at h
      · rename_i hok
        cases h
        exact .consumed hpc hr rfl hok rfl
      · rename_i hno
        cases h
        exact .refused hpc hr rfl hno
  case h_4 hpc =>
    split at h
    · cases h; exact .fail _
    · split at h
      · rename_i hok
        cases h
        refine .quiet (.inl rfl) (.inl rfl) (.inr ?_)
        simp [Call.ticket, Call.at_, hpc, hok]
      · split at h <;> cases h
        · exact .fail _
        · exact .quiet (.inl rfl) (.inl rfl) (.inl rfl)
  case h_5 hpc =>
    split at h <;> cases h
    exact .quiet (.inl rfl) (.inl rfl) (.inl rfl)
  case h_6 hpc =>
    split at h
    · cases h
    · rename_i hfresh
      cases h
      exact .drawn hpc hfresh
  case h_7 hpc =>
    split at h
    · cases h; exact .fail _
    · rename_i hr
      cases h
      exact .acquired hpc (by simpa using hr) rfl
  case h_8 hpc =>
    split at h
    · cases h; exact .fail _
    · rename_i hr
      split at h
      · rename_i hok
        subst hok
        split at h <;> rename_i hbreaker <;> cases h
        · refine .quiet (.inr ?_) (.inl rfl) (.inl rfl)
          simp [Call.token, Call.at_, hpc]
        · exact .scrape hpc (by simpa using hr) (by simpa using hbreaker)
      · split at h <;> cases h
        · exact .fail _
        · refine .quiet (.inl rfl) (.inl rfl) (.inr ?_)
          simp [Call.ticket, Call.at_, hpc]
  case h_9 hpc =>
    split at h <;> cases h
    refine .quiet (.inl rfl) (.inl rfl) (.inr ?_)
    simp [Call.ticket, Call.at_, hpc]
  case h_10 hpc =>
    split at h <;> cases h
    refine .quiet (.inr ?_) (.inl rfl) (.inl rfl)
    simp [Call.token, Call.at_, hpc]
  case h_11 hpc =>
    split at h <;> cases h
    · exact .quiet (.inl rfl) (.inl rfl) (.inl rfl)
    · exact .released hpc
  case h_12 => cases h

theorem step_eq_some {a : ℕ × CrawlTurn} {calls calls' : List Call}
    (h : step newURL o (w, calls) a = some (w', calls')) :
    ∃ c c', w.clock ≤ a.2.now ∧ calls[a.1]? = some c ∧
      Step o { w with clock := a.2.now } c a.2 w' c' ∧ calls' = calls.set a.1 c' := by
  unfold step at h
  split at h
  · rename_i hclock
    obtain ⟨c, c', hget, hmove, rfl⟩ := Pool.step_eq_some.mp h
    exact ⟨c, c', hclock, hget, move_eq_some hmove, rfl⟩
  · cases h

theorem filterMap_entry {δ : Type} {f : Call → Option δ} {calls : List Call}
    (hcalls : ∀ c ∈ calls, c.pc = .entry) (hf : ∀ c, c.pc = .entry → f c = none) :
    calls.filterMap f = [] :=
  List.filterMap_eq_nil_iff.mpr fun c hc => hf c (hcalls c hc)

end LinkBulker.Crawler
