import Mathlib.Data.Nat.Notation

/-!
# utils/mediaFrame.h, utils/mediaFrame.c: frames

A frame carries the data the muxer reads and the release callback that decides
what `mediaFrameRelease` does with it.  Pointers are plain numbers, 0 is NULL.
The fields `streamIndex`, `duration` and `pos` are never read and are left out.

The errno values are those of the platform the program is built for (macOS).
-/

namespace KoalaStreamer

/-- The release callbacks that frames of the program are given. -/
inductive FrameRelease
  /-- `release == NULL`: `default_release`. -/
  | null
  /-- A raw frame of the device thread. -/
  | releasePkt
  /-- An encoded frame of an encoder thread. -/
  | releasePktBuffer
deriving DecidableEq, Repr

structure MediaFrame where
  pBuffer : ℕ
  size : Int
  pts : Int
  dts : Int
  flag : Int
  release : FrameRelease
  releaseArg : ℕ
  pAppending : ℕ
deriving DecidableEq, Repr

/-- `mediaFrameCreate(0)`: a zeroed frame without a buffer. -/
def mediaFrameCreate : MediaFrame where
  pBuffer := 0
  size := 0
  pts := 0
  dts := 0
  flag := 0
  release := .null
  releaseArg := 0
  pAppending := 0

/-- `mediaFrame_setRelease`. -/
def mediaFrameSetRelease
    (pFrame : MediaFrame) (func : FrameRelease) (arg : ℕ) : MediaFrame :=
  { pFrame with release := func, releaseArg := arg }

/-- `errno.h`: operation timed out. -/
def ETIMEDOUT : Int := 60

/-- `errno.h`: broken pipe. -/
def EPIPE : Int := 32

/-- `errno.h`: state not recoverable. -/
def ENOTRECOVERABLE : Int := 104

end KoalaStreamer
