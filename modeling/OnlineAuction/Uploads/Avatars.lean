import OnlineAuction.Library.Attempts
import OnlineAuction.Transactions.UploadQuota

/-! `upload_avatar` and `delete_avatar` of `app/routers/uploads.py`: the requests of
one user, run one after another. The disk and the row are changed in separate
steps, in a fixed order, and each of them may raise. -/

namespace OnlineAuction.Uploads.Avatars

open Attempts

/-- `_PIL_FORMAT_TO_META`. -/
inductive Extension where
  | jpg
  | png
  | webp
  deriving DecidableEq

/-- `avatar_{user_id}_{hex}.{ext}`, the leaf of every `avatar_url` that is set. -/
structure AvatarFile where
  userId : UserId
  hex : Fin (16 ^ 8)
  ext : Extension
  deriving DecidableEq

/-- A step that is awaited returns; or it raises, by an error or a cancellation,
before it has taken effect or after it has. -/
inductive Outcome where
  | returns
  | raises
  | raisesAfter
  deriving DecidableEq

/-- What a request raises: an error that it answers with, or any other. -/
inductive Failure where
  | http (error : HTTPException)
  | raised
  deriving DecidableEq

/-- The avatars in `UPLOAD_DIR` and the row of the user, as it is committed. -/
structure Account where
  files : AvatarFile → Bool
  avatarUrl : Option AvatarFile
  window : UploadWindow

abbrev Handler := Attempt Account Failure

def step (outcome : Outcome) (effect : Account → Account) : Handler PUnit := do
  modify fun a => if outcome = .raises then a else effect a
  raiseIf (outcome ≠ .returns) .raised

def quotaExceeded : HTTPException :=
  ⟨413, s!"Превышен суточный лимит загрузок ({uploadQuotaBytes / (1024 * 1024)} МБ)."⟩

/-- `_check_upload_quota` and the commit after it. -/
def chargeQuota (size : Nat) (now : Time) (committed : Outcome) : Handler PUnit := do
  let a ← get
  let window := a.window.current now
  let projected := window.uploadBytesWindow + size
  raiseIf (uploadQuotaBytes < projected) (.http quotaExceeded)
  step committed fun a => { a with window := { window with uploadBytesWindow := projected } }

/-- `_safely_remove`; an error of `os.remove` is logged. -/
def Account.safelyRemove (removable : Bool) (file : AvatarFile) (a : Account) : Account :=
  if a.files file = true ∧ removable = true then
    { a with files := Function.update a.files file false }
  else a

/-- `_remove_avatar_file`. -/
def Account.removeAvatarFile (removable : Bool) (avatarUrl : Option AvatarFile) (a : Account) :
    Account :=
  match avatarUrl with
  | none => a
  | some leaf => a.safelyRemove removable leaf

/-- How the steps of `upload_avatar` turn out. `image` is what `_accept_image`
returns or raises, of the payload its size. -/
structure UploadSteps where
  image : Except Failure (Nat × Extension)
  now : Time
  charged : Outcome
  removable : Bool
  removal : Outcome
  hex : Fin (16 ^ 8)
  opened : Outcome
  written : Outcome
  cleanable : Bool
  committed : Outcome

/-- `aiofiles.open` creates the file; when it or the write raises, the file is removed. -/
def writeFile (steps : UploadSteps) (file : AvatarFile) : Handler PUnit :=
  tryCatch
    (do
      step steps.opened fun a => { a with files := Function.update a.files file true }
      step steps.written id)
    fun error => do
      modify (Account.safelyRemove steps.cleanable file)
      throw error

/-- `upload_avatar` from the commit of the quota on. A thread that removes the file goes
on when the request is cancelled. -/
def replaceAvatar (steps : UploadSteps) (file : AvatarFile) : Handler AvatarFile := do
  let a ← get
  step steps.removal (Account.removeAvatarFile steps.removable a.avatarUrl)
  writeFile steps file
  step steps.committed fun a => { a with avatarUrl := some file }
  pure file

def acceptImage : Except Failure (Nat × Extension) → Handler (Nat × Extension)
  | .ok image => pure image
  | .error failure => throw failure

/-- `POST /api/upload-avatar`. -/
def uploadAvatar (userId : UserId) (steps : UploadSteps) : Handler AvatarFile := do
  let (size, ext) ← acceptImage steps.image
  chargeQuota size steps.now steps.charged
  replaceAvatar steps ⟨userId, steps.hex, ext⟩

structure DeleteSteps where
  removable : Bool
  removal : Outcome
  committed : Outcome

/-- `DELETE /api/upload-avatar`. -/
def deleteAvatar (steps : DeleteSteps) : Handler PUnit := do
  let a ← get
  if a.avatarUrl ≠ none then
    step steps.removal (Account.removeAvatarFile steps.removable a.avatarUrl)
    step steps.committed fun a => { a with avatarUrl := none }

inductive Request where
  | upload (steps : UploadSteps)
  | delete (steps : DeleteSteps)

def handle (userId : UserId) : Request → Handler PUnit
  | .upload steps => do let _ ← uploadAvatar userId steps
  | .delete steps => deleteAvatar steps

def Account.initial (files : AvatarFile → Bool) (window : UploadWindow) : Account :=
  ⟨files, none, window⟩

/-- The file that the committed `avatar_url` names exists. -/
def Intact (a : Account) : Prop := ∀ file, a.avatarUrl = some file → a.files file = true

def UploadSteps.Writes (steps : UploadSteps) : Prop :=
  steps.opened = .returns ∧ steps.written = .returns

instance (steps : UploadSteps) : Decidable steps.Writes :=
  inferInstanceAs (Decidable (_ ∧ _))

/-- Once the old file is removed, the steps end before the new one is committed.
A new file with the name of the old one takes its place, or is removed in its place. -/
def UploadSteps.Loses (steps : UploadSteps) (file old : AvatarFile) : Prop :=
  steps.removable = true ∧ steps.removal = .raisesAfter ∨ steps.removal = .returns ∧
    if steps.Writes then steps.committed = .raises ∧ steps.removable = true ∧ file ≠ old
    else if file = old then
      steps.cleanable = true ∨ steps.removable = true ∧ steps.opened = .raises
    else steps.removable = true

def DeleteSteps.Loses (steps : DeleteSteps) : Prop :=
  steps.removable = true ∧ (steps.removal = .raisesAfter ∨
    steps.removal = .returns ∧ steps.committed = .raises)

/-- The request of a user with an avatar fails once its old file is gone. -/
def Loses (userId : UserId) (a : Account) : Request → Prop
  | .upload steps => ∃ old size ext, a.avatarUrl = some old ∧ steps.image = .ok (size, ext) ∧
      (a.window.current steps.now).uploadBytesWindow + size ≤ uploadQuotaBytes ∧
      steps.charged = .returns ∧ steps.Loses ⟨userId, steps.hex, ext⟩ old
  | .delete steps => a.avatarUrl ≠ none ∧ steps.Loses

section Steps

variable {a : Account} {returned : PUnit → Account → Prop} {raised : Failure → Account → Prop}

/-- A step takes effect or not, and raises or not. -/
@[simp] theorem ends_step (outcome : Outcome) (effect : Account → Account) :
    Ends (step outcome effect) returned raised a ↔ match outcome with
      | .returns => returned ⟨⟩ (effect a)
      | .raises => raised .raised a
      | .raisesAfter => raised .raised (effect a) := by
  cases outcome <;> simp [step]

@[simp] theorem ends_chargeQuota (size : Nat) (now : Time) (committed : Outcome) :
    Ends (chargeQuota size now committed) returned raised a ↔
      if uploadQuotaBytes < (a.window.current now).uploadBytesWindow + size then
        raised (.http quotaExceeded) a
      else Ends (step committed fun a' => { a' with window := { a.window.current now with
        uploadBytesWindow := (a.window.current now).uploadBytesWindow + size } })
        returned raised a := by
  simp only [chargeQuota, ends_bind, ends_get, ends_raiseIf]

def UploadSteps.leftover (steps : UploadSteps) (file : AvatarFile) (a : Account) : Account :=
  (if steps.opened = .raises then a
    else { a with files := Function.update a.files file true }).safelyRemove steps.cleanable file

/-- A file is written whole or the upload fails. -/
@[simp] theorem ends_writeFile (steps : UploadSteps) (file : AvatarFile) :
    Ends (writeFile steps file) returned raised a ↔ if steps.Writes then
        returned ⟨⟩ { a with files := Function.update a.files file true }
      else raised .raised (steps.leftover file a) := by
  rw [writeFile, ends_tryCatch, ends_bind, ends_step]
  cases hOpened : steps.opened <;> cases hWritten : steps.written <;>
    simp [UploadSteps.Writes, UploadSteps.leftover, hOpened, hWritten]

@[simp] theorem avatarUrl_safelyRemove (removable : Bool) (file : AvatarFile) (a : Account) :
    (a.safelyRemove removable file).avatarUrl = a.avatarUrl := by
  unfold Account.safelyRemove
  split_ifs <;> rfl

/-- The removal takes at most the file it names. -/
theorem files_safelyRemove (removable : Bool) (file other : AvatarFile) (a : Account) :
    (a.safelyRemove removable file).files other = true ↔
      a.files other = true ∧ ¬(removable = true ∧ other = file) := by
  unfold Account.safelyRemove
  by_cases hSame : other = file
  · subst hSame
    split_ifs with h
    · simp [h.2]
    · simpa using h
  · split_ifs <;> simp [hSame]

@[simp] theorem avatarUrl_leftover (steps : UploadSteps) (file : AvatarFile) (a : Account) :
    (steps.leftover file a).avatarUrl = a.avatarUrl := by
  unfold UploadSteps.leftover
  split_ifs <;> simp

theorem files_leftover (steps : UploadSteps) (file other : AvatarFile) (a : Account) :
    (steps.leftover file a).files other = true ↔ if other = file then
        steps.cleanable = false ∧ (steps.opened = .raises → a.files other = true)
      else a.files other = true := by
  rw [UploadSteps.leftover, files_safelyRemove]
  by_cases hSame : other = file
  · by_cases hOpened : steps.opened = .raises <;> simp [hSame, hOpened, and_comm]
  · by_cases hOpened : steps.opened = .raises <;> simp [hSame, hOpened]

theorem intact_of_unset (h : a.avatarUrl = none) : Intact a := by
  intro file hFile
  rw [h] at hFile
  cases hFile

/-- An account with an avatar is intact when the file is there. -/
theorem intact_of_set {old : AvatarFile} (h : a.avatarUrl = some old) :
    Intact a ↔ a.files old = true := by
  simp [Intact, h]

/-- A deletion keeps the account intact unless it loses the file. -/
theorem intact_delete_iff (userId : UserId) (steps : DeleteSteps) (h : Intact a) :
    Intact (left (deleteAvatar steps) a) ↔ ¬Loses userId a (.delete steps) := by
  rw [← ends_iff_left Intact, deleteAvatar, ends_bind, ends_get]
  cases hUrl : a.avatarUrl with
  | none => simpa [Loses, hUrl] using h
  | some old =>
      have hOld := (intact_of_set hUrl).mp h
      have hRemoved : Intact (a.removeAvatarFile steps.removable (some old)) ↔
          ¬steps.removable = true := by
        have hKept : (a.removeAvatarFile steps.removable (some old)).avatarUrl = some old := by
          simpa [Account.removeAvatarFile] using hUrl
        rw [intact_of_set hKept]
        simp [Account.removeAvatarFile, files_safelyRemove, hOld]
      have hUnset : Intact { a.removeAvatarFile steps.removable (some old) with
          avatarUrl := none } := intact_of_unset rfl
      rw [if_pos (by simp), ends_bind, ends_step]
      cases hRemoval : steps.removal with
      | raises => simpa [Loses, DeleteSteps.Loses, hRemoval] using h
      | raisesAfter => simpa [Loses, DeleteSteps.Loses, hRemoval, hUrl] using hRemoved
      | returns =>
          cases hCommitted : steps.committed with
          | returns => simpa [Loses, DeleteSteps.Loses, hRemoval, hCommitted] using hUnset
          | raisesAfter => simpa [Loses, DeleteSteps.Loses, hRemoval, hCommitted] using hUnset
          | raises => simpa [Loses, DeleteSteps.Loses, hRemoval, hCommitted, hUrl] using hRemoved

/-- What becomes of an avatar that is set. -/
theorem intact_replace_iff (steps : UploadSteps) (file : AvatarFile) {old : AvatarFile}
    (hUrl : a.avatarUrl = some old) (h : Intact a) :
    Ends (replaceAvatar steps file) (fun _ => Intact) (fun _ => Intact) a ↔
      ¬steps.Loses file old := by
  have hOld := (intact_of_set hUrl).mp h
  let b := a.removeAvatarFile steps.removable (some old)
  have hKept : b.avatarUrl = some old := by simpa [b, Account.removeAvatarFile] using hUrl
  have hRemoved : b.files old = true ↔ ¬steps.removable = true := by
    simp [b, Account.removeAvatarFile, files_safelyRemove, hOld]
  rw [replaceAvatar, ends_bind, ends_get, hUrl, ends_bind, ends_step]
  cases hRemoval : steps.removal with
  | raises => simpa [UploadSteps.Loses, hRemoval] using h
  | raisesAfter =>
      show Intact b ↔ _
      rw [intact_of_set hKept, hRemoved]
      simp [UploadSteps.Loses, hRemoval]
  | returns =>
      show Ends _ _ _ b ↔ _
      rw [ends_bind, ends_writeFile]
      by_cases hWrites : steps.Writes
      · have hSet : Intact { b with
            files := Function.update b.files file true, avatarUrl := some file } :=
          (intact_of_set rfl).mpr (Function.update_self ..)
        let rewritten : Account := { b with files := Function.update b.files file true }
        have hAnew : Intact rewritten ↔ ¬(steps.removable = true ∧ file ≠ old) := by
          have hStill : rewritten.avatarUrl = some old := hKept
          rw [intact_of_set hStill]
          show Function.update b.files file true old = true ↔ _
          by_cases hSame : file = old
          · simp [hSame]
          · simpa [hSame, Ne.symm hSame] using hRemoved
        rw [if_pos hWrites, ends_bind, ends_step]
        cases hCommitted : steps.committed with
        | returns => simpa [UploadSteps.Loses, hRemoval, hWrites, hCommitted] using hSet
        | raisesAfter => simpa [UploadSteps.Loses, hRemoval, hWrites, hCommitted] using hSet
        | raises => simpa [UploadSteps.Loses, hRemoval, hWrites, hCommitted] using hAnew
      · rw [if_neg hWrites, intact_of_set (by simpa using hKept), files_leftover, hRemoved]
        by_cases hSame : file = old
        · by_cases hOpened : steps.opened = .raises <;>
            simp [UploadSteps.Loses, hRemoval, hWrites, hSame, hOpened]
        · simp [UploadSteps.Loses, hRemoval, hWrites, hSame, Ne.symm hSame]

/-- A user without an avatar has none, or one that is set. -/
theorem intact_replace_of_unset (steps : UploadSteps) (file : AvatarFile)
    (hUrl : a.avatarUrl = none) :
    Ends (replaceAvatar steps file) (fun _ => Intact) (fun _ => Intact) a := by
  have hSet (files : AvatarFile → Bool) :
      Intact { a with files := Function.update files file true, avatarUrl := some file } :=
    (intact_of_set rfl).mpr (Function.update_self ..)
  rw [replaceAvatar, ends_bind, ends_get, hUrl, ends_bind, ends_step]
  cases steps.removal with
  | raises => exact intact_of_unset hUrl
  | raisesAfter => exact intact_of_unset hUrl
  | returns =>
      show Ends _ _ _ a
      rw [ends_bind, ends_writeFile]
      split_ifs
      · rw [ends_bind, ends_step]
        cases steps.committed with
        | returns => exact hSet a.files
        | raisesAfter => exact hSet a.files
        | raises => exact intact_of_unset hUrl
      · exact intact_of_unset (by simpa using hUrl)

/-- An upload keeps the account intact unless it loses the file. -/
theorem intact_upload_iff (userId : UserId) (steps : UploadSteps) (h : Intact a) :
    Intact (left (uploadAvatar userId steps) a) ↔ ¬Loses userId a (.upload steps) := by
  rw [← ends_iff_left Intact, uploadAvatar, ends_bind]
  cases hImage : steps.image with
  | error failure => simpa [acceptImage, Loses, hImage] using h
  | ok image =>
      obtain ⟨size, ext⟩ := image
      rw [acceptImage, ends_pure, ends_bind, ends_chargeQuota]
      by_cases hQuota : uploadQuotaBytes < (a.window.current steps.now).uploadBytesWindow + size
      · rw [if_pos hQuota]
        simpa [Loses, hImage, hQuota] using h
      · rw [if_neg hQuota, ends_step]
        let charged : Account := { a with window := { a.window.current steps.now with
          uploadBytesWindow := (a.window.current steps.now).uploadBytesWindow + size } }
        have hKept : Intact charged := h
        cases hCharged : steps.charged with
        | raises => simpa [Loses, hCharged] using h
        | raisesAfter =>
            show Intact charged ↔ _
            simpa [Loses, hCharged] using hKept
        | returns =>
            show Ends _ _ _ charged ↔ _
            cases hUrl : a.avatarUrl with
            | none =>
                have hUnset : charged.avatarUrl = none := hUrl
                simpa [Loses, hUrl] using intact_replace_of_unset steps _ hUnset
            | some old =>
                have hSet : charged.avatarUrl = some old := hUrl
                rw [intact_replace_iff steps _ hSet hKept]
                simp [Loses, hUrl, hImage, hCharged, not_lt.mp hQuota]

end Steps

/-- In every run of one user's requests, from one who has set no avatar: after each
request the file of the committed `avatar_url` exists, if and only if no request
fails once the file that it found there is gone. -/
theorem avatar_intact_iff (userId : UserId) (files : AvatarFile → Bool) (window : UploadWindow)
    (requests : List Request) :
    (∀ n, Intact (leftBy (handle userId) (.initial files window) (requests.take n))) ↔
      ∀ n request, requests[n]? = some request →
        ¬Loses userId (leftBy (handle userId) (.initial files window) (requests.take n))
          request := by
  apply kept_throughout_iff Intact fun a request => ¬Loses userId a request
  · intro a request h
    cases request with
    | upload steps =>
        rw [← intact_upload_iff userId steps h, ← ends_iff_left Intact, ← ends_iff_left Intact]
        exact ends_bind _ _
    | delete steps => exact intact_delete_iff userId steps h
  · exact intact_of_unset rfl

/-- An upload all of whose steps succeed. -/
def portrait (hex : Fin (16 ^ 8)) : UploadSteps where
  image := .ok (2000, .png)
  now := 0
  charged := .returns
  removable := true
  removal := .returns
  hex := hex
  opened := .returns
  written := .returns
  cleanable := true
  committed := .returns

/-- The disk is full at the second upload, once the first avatar is gone. -/
theorem avatar_not_intact : ¬∀ (userId : UserId) (files : AvatarFile → Bool)
    (window : UploadWindow) (requests : List Request) (n : Nat),
    Intact (leftBy (handle userId) (.initial files window) (requests.take n)) := by
  intro hIntact
  have hFirst := hIntact 7 (fun _ => false) ⟨0, none⟩
    [.upload (portrait 1), .upload { portrait 2 with written := .raises }] 2 ⟨7, 1, .png⟩ rfl
  revert hFirst
  decide

end OnlineAuction.Uploads.Avatars
