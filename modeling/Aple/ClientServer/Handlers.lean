/-
**The request handlers that keep global resources.**

* `ReleaseProc`, `ServerWorld` — the two release procedures in use, and what they and the handlers
  call outside of the server: `DestroyCursor` and the table of the shared semaphores.
* `registerCursor` and the six cursor handlers; `allocSemForSharedSurf`, `freeSemForSharedSurf`.

A handler returns its reply and the state. What a function outside of the server returns (a handle,
a semaphore number, the result of `DestroyCursor`) is an argument of the handler that calls it.
-/

import Aple.ClientServer.GlobalRes

namespace Aple.ClientServer

open Aple.Lib

/-! ### Outside of the server -/

/-- A value of type `int`. -/
abbrev Int32 := BitVec 32

/-- The functions passed as `release_proc`. -/
inductive ReleaseProc
  | destroyCursor
  | myReleaseSemForSharedSurf
deriving DecidableEq, Repr

/-- A call on the table of the shared semaphores, with the client it is made for. -/
inductive SemCall
  | alloc (semNum : Int32) (cli : ℕ)
  | free (semNum : Int32) (cli : ℕ)
deriving DecidableEq, Repr

/-- The calls of `DestroyCursor`, in order; the calls on the semaphores, the newest first. -/
structure ServerWorld where
  destroyed : List Word
  log : List SemCall
deriving DecidableEq, Repr

/-- A release procedure, called in a request of `cli` or at its end. -/
def callReleaseBy (cli : ℕ) (proc : ReleaseProc) (res : Word) (world : ServerWorld) : ServerWorld :=
  match proc with
  | .destroyCursor => { world with destroyed := world.destroyed ++ [res] }
  | .myReleaseSemForSharedSurf => { world with log := .free (res.setWidth 32) cli :: world.log }

abbrev Server := ResState ReleaseProc ServerWorld

/-! ### Cursors -/

/-- `if (hcsr) add_global_res (cli, hcsr, hcsr, release_proc)`, and the reply. -/
def registerCursor (cli : ℕ) (addr : Addr) (hcsr : Word) (releaseProc : Option ReleaseProc)
    (s : Server) : Option (Word × Server) :=
  if hcsr = 0 then some (hcsr, s)
  else (addGlobalRes cli addr hcsr hcsr releaseProc s).map fun s => (hcsr, s)

/-- `load_cursor`. -/
def loadCursor (cli : ℕ) (addr : Addr) (hcsr : Word) (s : Server) : Option (Word × Server) :=
  registerCursor cli addr hcsr (some .destroyCursor) s

/-- `sizeof (hotspot)`. -/
def sizeofHotspot : ℕ := 8

/-- `load_cursor_png_file`. -/
def loadCursorPngFile (len cli : ℕ) (addr : Addr) (hcsr : Word) (s : Server) :
    Option (Word × Server) :=
  if len ≤ sizeofHotspot + 1 then some (0, s)
  else registerCursor cli addr hcsr (some .destroyCursor) s

/-- `load_cursor_png_mem`. With too little data, the reply is a variable that was not set. -/
def loadCursorPngMem (len : ℕ) (unset : Word) (cli : ℕ) (addr : Addr) (hcsr : Word) (s : Server) :
    Option (Word × Server) :=
  if len < sizeofHotspot + 67 then some (unset, s)
  else registerCursor cli addr hcsr (some .destroyCursor) s

/-- `create_cursor`. -/
def createCursor (cli : ℕ) (addr : Addr) (hcsr : Word) (s : Server) : Option (Word × Server) :=
  registerCursor cli addr hcsr none s

/-- `copy_cursor`. -/
def copyCursor (cli : ℕ) (addr : Addr) (hcsr : Word) (s : Server) : Option (Word × Server) :=
  registerCursor cli addr hcsr none s

/-- `destroy_cursor`, with `result` returned by `DestroyCursor`. -/
def destroyCursor (fuel cli : ℕ) (hcsr : Word) (result : Bool) (s : Server) :
    Option (Bool × Server) :=
  let s := { s with world := { s.world with destroyed := s.world.destroyed ++ [hcsr] } }
  (delGlobalRes (callReleaseBy cli) fuel cli hcsr hcsr s).map fun s => (result, s)

/-! ### Shared semaphores -/

/-- `alloc_sem_for_shared_surf`; `key` is the address of this function. -/
def allocSemForSharedSurf (key : Word) (cli : ℕ) (addr : Addr) (semNum : Int32) (s : Server) :
    Option (Int32 × Server) :=
  if 0 ≤ semNum.toInt then
    let s := { s with world := { s.world with log := .alloc semNum cli :: s.world.log } }
    (addGlobalRes cli addr key (semNum.signExtend 64) (some .myReleaseSemForSharedSurf) s).map
      fun s => (semNum, s)
  else some (semNum, s)

/-- `free_sem_for_shared_surf`. -/
def freeSemForSharedSurf (key : Word) (fuel cli : ℕ) (semNum : Int32) (s : Server) :
    Option (Int32 × Server) :=
  (delGlobalRes (callReleaseBy cli) fuel cli key (semNum.signExtend 64) s).map fun s => (0, s)

end Aple.ClientServer
