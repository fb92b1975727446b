import LinkBulker.Db.Schema

/-! `packages/shared/src/constants.ts` and `schemas/jobs.ts`: key names, job payloads and the
progress events of a project's channel.  Times stay milliseconds where the wire carries the ISO
string. -/

namespace LinkBulker.Shared

open Db

namespace LIMITS

def MAX_MANUAL_URLS_PER_TASK : ℕ := 1000

def SINGLE_LINK_RECHECK_COOLDOWN_SEC : ℕ := 60

def SSE_THROTTLE_MS : ℤ := 500

end LIMITS

namespace REDIS_KEYS

def projectManualLock (projectId : ProjectId) : String := "lock:project:" ++ projectId ++ ":manual"

def projectSheetsLock (projectId : ProjectId) : String := "lock:project:" ++ projectId ++ ":sheets"

def projectChannel (projectId : ProjectId) : String := "channel:project:" ++ projectId

end REDIS_KEYS

structure SingleLinkJobData where
  linkId : LinkId
  projectId : ProjectId
  source : LinkSource
  deriving DecidableEq

structure ManualCheckJobData where
  projectId : ProjectId
  linkIds : List LinkId
  deriving DecidableEq

structure SheetsTaskRunJobData where
  sheetsTaskId : SheetsTaskId
  scheduled : Option Bool := none
  deriving DecidableEq

structure LinkUpdated where
  linkId : LinkId
  projectId : ProjectId
  status : LinkStatus
  linkFound : Option Bool
  occurrencesCount : ℕ
  donorStatusCode : Option ℤ
  error : Option String
  lastCheckedAt : Option ℤ
  deriving DecidableEq

structure ProgressCounts where
  total : ℕ
  processed : ℕ
  found : ℕ
  errors : ℕ
  deriving DecidableEq

inductive ProgressEvent
  | link_updated (event : LinkUpdated)
  | progress (projectId : ProjectId) (counts : ProgressCounts)
  | lock_changed (projectId : ProjectId) (manualChecking : Bool)
  | done (projectId : ProjectId) (total found errors : ℕ)
  | sheets_task_updated (sheetsTaskId : SheetsTaskId) (projectId : ProjectId)
      (status : SheetsTaskStatus) (lastRunAt : Option ℤ) (lastRunStatus : Option String)
  | sheets_task_progress (sheetsTaskId : SheetsTaskId) (projectId : ProjectId)
      (counts : ProgressCounts)
  deriving DecidableEq

end LinkBulker.Shared
