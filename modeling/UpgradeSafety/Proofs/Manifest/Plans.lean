import Mathlib.Tactic.Lemma
import UpgradeSafety.Manifest.Store

/-!
# Accesses one at a time

What is done in a store as a plan: either done, or an access and what to do next
for each of its answers. Carried out access by access, several plans can be mixed
in any order.
-/

namespace UpgradeSafety

/-- A single step in the directory of a manifest. -/
inductive Access where
  | makeDirectory
  | openLock
  | tryLock (holder : LockHolder)
  | unlock (holder : LockHolder)
  | readManifest
  | replaceManifest (text : String)
  deriving DecidableEq

namespace Access

/-- What an access can be answered with. -/
def Answer : Access → Type
  | .unlock _ => Unit
  | .readManifest => Reading
  | .tryLock _ => LockAttempt
  | _ => Bool

/-- The answer of a disk and the disk afterwards. -/
def serve (d : Disk) : (what : Access) → what.Answer × Disk
  | .makeDirectory => d.makeDirectory
  | .openLock => d.openLock
  | .tryLock holder => d.attemptLock holder
  | .unlock holder => ((), d.unlock holder)
  | .readManifest => (d.readManifest, d)
  | .replaceManifest text => d.replaceManifest text

/-- The answer where the file system refuses an access; giving a lock back is not refused. -/
def refusal? : (what : Access) → Option what.Answer
  | .makeDirectory => some false
  | .openLock => some false
  | .tryLock _ => some .refused
  | .unlock _ => none
  | .readManifest => some .unreadable
  | .replaceManifest _ => some false

end Access

/-- An access is served by the disk or refused by the file system, which changes nothing. -/
inductive Answered (d : Disk) (what : Access) : what.Answer → Disk → Prop where
  | served : Answered d what (what.serve d).1 (what.serve d).2
  | refused {answer : what.Answer} (refusal : what.refusal? = some answer) :
      Answered d what answer d

inductive Plan (α : Type) where
  | done (a : α)
  | access (what : Access) (next : what.Answer → Plan α)

namespace Plan

variable {α β γ : Type}

def bind : Plan α → (α → Plan β) → Plan β
  | done a, f => f a
  | access what next, f => access what fun answer => (next answer).bind f

instance : Monad Plan where
  pure := done
  bind := bind

lemma done_bind (a : α) (f : α → Plan β) : (done a >>= f) = f a := rfl

lemma access_bind (what : Access) (next : what.Answer → Plan α) (f : α → Plan β) :
    (access what next >>= f) = access what fun answer => next answer >>= f := rfl

lemma bind_done (x : Plan α) : (x >>= fun a => done a) = x := by
  induction x with
  | done a => rfl
  | access what next ih =>
    rw [access_bind]
    exact congrArg (access what) (funext ih)

lemma bind_assoc (x : Plan α) (f : α → Plan β) (g : β → Plan γ) :
    (x >>= f >>= g) = x >>= fun a => f a >>= g := by
  induction x with
  | done a => rfl
  | access what next ih =>
    rw [access_bind, access_bind, access_bind]
    exact congrArg (access what) (funext ih)

instance : LawfulMonad Plan :=
  LawfulMonad.mk' Plan bind_done (fun _ _ => rfl) bind_assoc

/-- The plan of one access. -/
def ask (what : Access) : Plan what.Answer := access what done

instance : ManifestStore Plan where
  makeDirectory := ask .makeDirectory
  openLock := ask .openLock
  tryLock holder := ask (.tryLock holder)
  unlock holder := ask (.unlock holder)
  readManifest := ask .readManifest
  replaceManifest text := ask (.replaceManifest text)

end Plan

end UpgradeSafety
