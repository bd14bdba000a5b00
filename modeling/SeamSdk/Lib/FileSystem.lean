import SeamSdk.Lib.ByteCodec
import SeamSdk.Lib.Effect

/-!
# A file system under system calls that may fail

Names stand for inodes, and an inode holds a file, a directory or a symbolic link; two names of one inode are hard links.
Every call asks an oracle first: it fails with an error of the oracle's choice and changes nothing, or it does what the
file system allows. A write takes as many bytes as the oracle says, and at least one. Each call leaves an event behind,
with its error and with the file system after it, so that the log of a run has every state that was passed through.

- `holds_withFile`, `holds_link`, `holds_unlink`: what a name holds after each change;
- `spec_call`: a call is specified by its effect and by what a failure leaves.
-/

namespace FileSystem

open List

open ByteCodec (Bytes)
open Effect

inductive Errno
  | eexist
  | enoent
  | other (code : Nat)
  deriving DecidableEq

structure OSError where
  errno : Errno
  strerror : String
  deriving DecidableEq

def fileExists : OSError := ⟨.eexist, "File exists"⟩

def noEntry : OSError := ⟨.enoent, "No such file or directory"⟩

inductive Node
  | file (content : Bytes)
  | directory
  | symlink (target : String)
  deriving DecidableEq

/-- Names, each with the inode it stands for, and inodes with what they hold. -/
structure FileStore (K : Type) where
  entry : K → Option Nat
  node : Nat → Node
  /-- The inode that a new file gets. -/
  next : Nat
  entry_lt : ∀ k i, entry k = some i → i < next

namespace FileStore

variable {K : Type}

/-- What stands under a name. -/
def holds (fs : FileStore K) (k : K) : Option Node := (fs.entry k).map fs.node

variable {k : K}

theorem holds_eq_none {fs : FileStore K} : fs.holds k = none ↔ fs.entry k = none := Option.map_eq_none_iff

variable [DecidableEq K] (fs : FileStore K)

/-- A new file under a name. -/
def withFile (k : K) (content : Bytes) : FileStore K where
  entry l := if l = k then some fs.next else fs.entry l
  node i := if i = fs.next then .file content else fs.node i
  next := fs.next + 1
  entry_lt l i h := by
    split at h
    · cases h
      exact Nat.lt_succ_self _
    · exact Nat.lt_succ_of_lt (fs.entry_lt l i h)

/-- Bytes at the end of a file. -/
def append (i : Nat) (b : Bytes) : FileStore K where
  entry := fs.entry
  node j :=
    match fs.node j with
    | .file content => if j = i then .file (content ++ b) else .file content
    | n => n
  next := fs.next
  entry_lt := fs.entry_lt

/-- A second name for the inode of a name. -/
def link (k l : K) : FileStore K where
  entry m := if m = l then fs.entry k else fs.entry m
  node := fs.node
  next := fs.next
  entry_lt m i h := by
    split at h
    · exact fs.entry_lt k i h
    · exact fs.entry_lt m i h

def unlink (k : K) : FileStore K where
  entry m := if m = k then none else fs.entry m
  node := fs.node
  next := fs.next
  entry_lt m i h := by
    split at h
    · cases h
    · exact fs.entry_lt m i h

variable {fs}

theorem holds_withFile (k : K) (content : Bytes) : (fs.withFile k content).holds k = some (.file content) := by
  simp [holds, withFile]

theorem holds_withFile_of_ne {l : K} (h : l ≠ k) (content : Bytes) : (fs.withFile k content).holds l = fs.holds l := by
  unfold holds withFile
  dsimp only
  rw [if_neg h]
  cases hentry : fs.entry l with
  | none => rfl
  | some i =>
    have hi := fs.entry_lt l i hentry
    rw [Option.map_some, Option.map_some, if_neg (Nat.ne_of_lt hi)]

theorem append_withFile (k : K) (b c : Bytes) : (fs.withFile k b).append fs.next c = fs.withFile k (b ++ c) := by
  unfold append withFile
  congr 1
  funext i
  by_cases h : i = fs.next
  · simp [h]
  · simp only [if_neg h]
    cases fs.node i <;> rfl

theorem holds_link (k l : K) : (fs.link k l).holds l = fs.holds k := by
  simp [holds, link]

theorem holds_link_of_ne {l m : K} (h : m ≠ l) : (fs.link k l).holds m = fs.holds m := by
  simp [holds, link, h]

theorem holds_unlink (k : K) : (fs.unlink k).holds k = none := by
  simp [holds, unlink]

theorem holds_unlink_of_ne {m : K} (h : m ≠ k) : (fs.unlink k).holds m = fs.holds m := by
  simp [holds, unlink, h]

end FileStore

/-! ## Calls -/

/-- An open file or directory. -/
inductive Descriptor
  | file (inode : Nat)
  | directory (path : String)

/-- A call; where a path leads to no directory, there is no name. -/
inductive SysCall (K : Type)
  | openNew (name : Option K)
  | openDir (path : String)
  | fchmod (fd : Descriptor) (mode : Nat)
  | write (inode : Nat) (view : Bytes)
  | fsync (fd : Descriptor)
  | close (fd : Descriptor)
  | link (old new : Option K)
  | unlink (name : Option K)

structure Performed (K : Type) where
  call : SysCall K
  error : Option OSError
  after : FileStore K

/-- The file system, and what has happened to it. -/
structure World (K : Type) where
  fs : FileStore K
  log : List (Performed K)

/-- The choice for a call: it fails, or it goes ahead with a number that says how much a write takes. -/
inductive Answer
  | fail (e : OSError)
  | go (n : Nat)

section Calls

variable {K : Type} (oracle : Nat → Answer)

abbrev Sys (K ε α : Type) := Run (World K) ε α

/-- A call with its effect on the file system. The oracle is asked with the number of the call. -/
def call {α : Type} (c : SysCall K) (effect : Nat → FileStore K → Except OSError (α × FileStore K)) :
    Sys K OSError α := fun w =>
  match oracle w.log.length with
  | .fail e => (.error e, ⟨w.fs, w.log ++ [⟨c, some e, w.fs⟩]⟩)
  | .go n =>
    match effect n w.fs with
    | .error e => (.error e, ⟨w.fs, w.log ++ [⟨c, some e, w.fs⟩]⟩)
    | .ok (a, fs) => (.ok a, ⟨fs, w.log ++ [⟨c, none, fs⟩]⟩)

/-- A call that changes nothing. -/
def touch (c : SysCall K) : Sys K OSError Unit := call oracle c fun _ fs => .ok ((), fs)

variable [DecidableEq K]

/-- `os.open` with `O_CREAT | O_EXCL` gives the inode of the new file. -/
def openNew (name : Option K) : Sys K OSError Nat := call oracle (.openNew name) fun _ fs =>
  match name with
  | none => .error noEntry
  | some k => if (fs.entry k).isSome then .error fileExists else .ok (fs.next, fs.withFile k [])

/-- How much of a view is written. -/
abbrev Count (view : Bytes) := {n : Nat // 0 < n ∧ n ≤ view.length}

/-- `os.write` of a view that is not empty. -/
def write (inode : Nat) (view : Bytes) (h : view ≠ []) : Sys K OSError (Count view) :=
  call oracle (.write inode view) fun n fs =>
    let count := min (n + 1) view.length
    .ok (⟨count, by have := List.length_pos_iff.mpr h; omega⟩, fs.append inode (view.take count))

/-- `os.link`, which fails if there is anything under the new name. -/
def link (old new : Option K) : Sys K OSError Unit := call oracle (.link old new) fun _ fs =>
  match old, new with
  | some k, some l =>
    if (fs.entry k).isNone then .error noEntry
    else if (fs.entry l).isSome then .error fileExists
    else .ok ((), fs.link k l)
  | _, _ => .error noEntry

def unlink (name : Option K) : Sys K OSError Unit := call oracle (.unlink name) fun _ fs =>
  match name with
  | none => .error noEntry
  | some k => if (fs.entry k).isNone then .error noEntry else .ok ((), fs.unlink k)

/-- A view is written in as many calls as it takes. -/
def writeAll (inode : Nat) (view : Bytes) : Sys K OSError Unit :=
  if h : view = [] then pure ()
  else do
    let n ← write oracle inode view h
    writeAll inode (view.drop n)
termination_by view.length
decreasing_by
  have := n.2
  rw [List.length_drop]
  omega

end Calls

/-! ## Specifications -/

section Specs

variable {K : Type} {oracle : Nat → Answer}

variable {E : OSError → World K → Prop} {c : SysCall K} {w : World K} {α : Type}
  {effect : Nat → FileStore K → Except OSError (α × FileStore K)}

/-- A call that fails leaves the file system as it was. -/
theorem spec_call {P : World K → Prop} {Q : α → World K → Prop}
    (hok : ∀ w, P w → ∀ n a fs, effect n w.fs = .ok (a, fs) → Q a ⟨fs, w.log ++ [⟨c, none, fs⟩]⟩)
    (herror : ∀ w, P w → ∀ e, E e ⟨w.fs, w.log ++ [⟨c, some e, w.fs⟩]⟩) : Spec P (call oracle c effect) Q E := by
  intro w hw
  unfold call
  cases oracle w.log.length with
  | fail e => exact herror w hw e
  | go n =>
    dsimp only
    cases heffect : effect n w.fs with
    | error e => exact herror w hw e
    | ok r => exact hok w hw n r.1 r.2 heffect

theorem call_of_go {n : Nat} {a : α} {fs : FileStore K} (h : oracle w.log.length = .go n)
    (heffect : effect n w.fs = .ok (a, fs)) : call oracle c effect w = (.ok a, ⟨fs, w.log ++ [⟨c, none, fs⟩]⟩) := by
  rw [call, h]
  dsimp only
  rw [heffect]

theorem call_of_fail {e : OSError} (h : oracle w.log.length = .fail e) :
    call oracle c effect w = (.error e, ⟨w.fs, w.log ++ [⟨c, some e, w.fs⟩]⟩) := by
  rw [call, h]

theorem spec_touch {P : World K → Prop} {Q : World K → Prop} (hok : ∀ w, P w → Q ⟨w.fs, w.log ++ [⟨c, none, w.fs⟩]⟩)
    (herror : ∀ w, P w → ∀ e, E e ⟨w.fs, w.log ++ [⟨c, some e, w.fs⟩]⟩) : Spec P (touch oracle c) (fun _ => Q) E := by
  refine spec_call (fun w hw n a fs h => ?_) herror
  obtain ⟨rfl, rfl⟩ := Prod.mk.inj (Except.ok.inj h)
  exact hok w hw

/-- **A view is written to its end**, if one more write always keeps what has been reached. -/
theorem spec_writeAll {inode : Nat} {I : Bytes → World K → Prop} {content : Bytes}
    (hwrite : ∀ w b c view, c ≠ [] → b ++ c ++ view = content → I b w →
      I (b ++ c) ⟨w.fs.append inode c, w.log ++ [⟨.write inode (c ++ view), none, w.fs.append inode c⟩]⟩)
    (herror : ∀ w b view e, I b w → E e ⟨w.fs, w.log ++ [⟨.write inode view, some e, w.fs⟩]⟩) :
    ∀ b view, b ++ view = content → Spec (I b) (writeAll oracle inode view) (fun _ => I content) E := by
  intro b view
  induction hlength : view.length using Nat.strongRecOn generalizing b view with
  | ind n ih =>
    intro hcontent
    rw [writeAll]
    split
    case isTrue h =>
      subst h
      rw [append_nil] at hcontent
      subst hcontent
      exact Spec.pure fun _ hw => hw
    case isFalse h =>
      refine Spec.bind (Q := fun (n : Count view) => I (b ++ view.take n.1)) (spec_call ?_ ?_) fun count => ?_
      · intro w hw n a fs heffect
        obtain ⟨rfl, rfl⟩ := Prod.mk.inj (Except.ok.inj heffect)
        have hview := take_append_drop (min (n + 1) view.length) view
        have hnonempty : view.take (min (n + 1) view.length) ≠ [] := by
          have := length_pos_iff.mpr h
          rw [ne_eq, ← length_eq_zero_iff, length_take]
          omega
        have hstep := hwrite w b (view.take (min (n + 1) view.length)) (view.drop (min (n + 1) view.length)) hnonempty
          (by rw [append_assoc, hview, hcontent]) hw
        rwa [hview] at hstep
      · exact fun w hw e => herror w b view e hw
      · have hcount := count.2
        refine ih _ ?_ _ _ rfl ?_
        · rw [length_drop]
          omega
        · rw [append_assoc, take_append_drop, hcontent]

/-- A view is written in one call if that takes all of it. -/
theorem writeAll_once {inode n : Nat} {view : Bytes} (hview : view ≠ []) (hn : view.length ≤ n)
    (horacle : oracle w.log.length = .go n) : writeAll oracle inode view w =
      (.ok (), ⟨w.fs.append inode view, w.log ++ [⟨.write inode view, none, w.fs.append inode view⟩]⟩) := by
  have hcount : min (n + 1) view.length = view.length := by omega
  have hwrite : write oracle inode view hview w = (.ok ⟨view.length, length_pos_iff.mpr hview, le_refl _⟩,
      ⟨w.fs.append inode view, w.log ++ [⟨.write inode view, none, w.fs.append inode view⟩]⟩) :=
    call_of_go horacle (by simp only [hcount, take_length])
  rw [writeAll, dif_neg hview, bind_of_ok hwrite, drop_length, writeAll, dif_pos rfl]
  rfl

end Specs

end FileSystem
