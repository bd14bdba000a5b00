import SeamSdk.Sdk.IdentityCreate

/-!
# Creating a bootstrap file is all or nothing until it is published

Every run of `create_identity_file` goes through few states of the file system: as it was (`Untouched`), with a temporary
file that holds a part of the body (`Temp`), and with the whole body under both names (`Linked`). Each block of the source
is specified by the states it leads from and to (`spec_createTemp` up to `spec_fsyncDir`), and so is the whole
(`spec_createIdentityFile`).

The path never holds anything but what it held before and the whole body. What is raised before the link leaves it as it
was; but the call still removes the temporary name and syncs the directory when the body is published, and when that fails
it raises although the path now holds the body (`LateFailure`).
-/

namespace SeamSdk.Python

open ByteCodec Utf16 Effect FileSystem FileStore List

/-! ## Events -/

section Events

variable {K : Type}

/-- The hard link was made. -/
def published (ev : Performed K) : Bool :=
  match ev.call, ev.error with
  | .link _ _, none => true
  | _, _ => false

def unlinkFailed (ev : Performed K) : Bool :=
  match ev.call, ev.error with
  | .unlink _, some _ => true
  | _, _ => false

/-- A call failed; that there is nothing to unlink does not count. -/
def fatal (ev : Performed K) : Bool :=
  match ev.call, ev.error with
  | .unlink _, some e => e.errno ≠ .enoent
  | _, some _ => true
  | _, none => false

/-- Some call behind the hard link failed. -/
def LateFailure (log : List (Performed K)) : Prop :=
  ∃ ev ∈ (log.dropWhile fun ev => !published ev).tail, fatal ev = true

variable {log : List (Performed K)} {ev : Performed K}

theorem dropWhile_unpublished (h : ∀ ev ∈ log, published ev = false) (rest : List (Performed K)) :
    (log ++ rest).dropWhile (fun ev => !published ev) = rest.dropWhile fun ev => !published ev :=
  dropWhile_append_of_pos fun ev hev => by rw [h ev hev]; rfl

theorem not_lateFailure_of_unpublished (h : ∀ ev ∈ log, published ev = false) : ¬LateFailure log := by
  have hdrop := dropWhile_unpublished h []
  rw [append_nil] at hdrop
  rintro ⟨ev, hev, -⟩
  rw [hdrop] at hev
  cases hev

/-- Nothing has happened behind the link yet. -/
theorem not_lateFailure_link (h : ∀ ev ∈ log, published ev = false) (hev : published ev = true) :
    ¬LateFailure (log ++ [ev]) := by
  rintro ⟨ev', hev', -⟩
  rw [dropWhile_unpublished h, dropWhile_cons, hev] at hev'
  cases hev'

/-- Behind the link every failure counts. -/
theorem lateFailure_append (h : ∃ ev ∈ log, published ev = true) :
    LateFailure (log ++ [ev]) ↔ LateFailure log ∨ fatal ev = true := by
  have hne : log.dropWhile (fun ev => !published ev) ≠ [] := by
    rw [ne_eq, dropWhile_eq_nil_iff]
    obtain ⟨ev, hev, hpublished⟩ := h
    intro hall
    have := hall ev hev
    rw [hpublished] at this
    cases this
  have htail : ((log ++ [ev]).dropWhile fun ev => !published ev).tail =
      (log.dropWhile fun ev => !published ev).tail ++ [ev] := by
    rw [dropWhile_append, if_neg (by simpa using hne), tail_append_of_ne_nil hne]
  unfold LateFailure
  rw [htail]
  simp [or_and_right, exists_or]

end Events

/-! ## States of a run -/

section States

variable {D : Type} (os : Os D) (fs₀ : OsStore D) (tmp final : String)

/-- What stands under a path. -/
def held (fs : OsStore D) (p : String) : Option Node := (os.locate p).bind fs.holds

/-- Nothing has been published, and the path has been as it was all the time. -/
def Quiet (log : List (Performed (D × String))) : Prop :=
  ∀ ev ∈ log, published ev = false ∧ held os ev.after final = held os fs₀ final

/-- Nothing has been changed. -/
structure Untouched (w : OsWorld D) : Prop where
  fs_eq : w.fs = fs₀
  quiet : Quiet os fs₀ final w.log

/-- There is a new temporary file. -/
structure Temp [DecidableEq D] (content : Bytes) (w : OsWorld D) : Prop where
  fs_eq : ∃ key, os.locate tmp = some key ∧ fs₀.entry key = none ∧ w.fs = fs₀.withFile key content
  quiet : Quiet os fs₀ final w.log

/-- Nothing has been published, and nothing is left behind unless `unlink` failed. -/
structure Failed (w : OsWorld D) : Prop where
  held_eq : held os w.fs final = held os fs₀ final
  others : (∀ key, os.locate final ≠ some key → w.fs.holds key = fs₀.holds key) ∨
    ∃ ev ∈ w.log, unlinkFailed ev = true
  quiet : Quiet os fs₀ final w.log

/-- The whole body stands under both names. -/
structure Linked [DecidableEq D] (body : Bytes) (w : OsWorld D) : Prop where
  fs_eq : ∃ key key', os.locate tmp = some key ∧ os.locate final = some key' ∧ fs₀.entry key = none ∧
    fs₀.entry key' = none ∧ w.fs = (fs₀.withFile key body).link key key'
  log_eq : ∃ log ev, w.log = log ++ [ev] ∧ Quiet os fs₀ final log ∧ published ev = true ∧ ev.after = w.fs

/-- The path holds the body, and a call has failed since or not. -/
structure Published (body : Bytes) (late : Prop) (w : OsWorld D) : Prop where
  empty : held os fs₀ final = none
  held_eq : held os w.fs final = some (.file body)
  others : (∀ key, os.locate final ≠ some key → w.fs.holds key = fs₀.holds key) ∨
    ∃ ev ∈ w.log, unlinkFailed ev = true
  moments : ∀ ev ∈ w.log, held os ev.after final = none ∨ held os ev.after final = some (.file body)
  linked : ∃ ev ∈ w.log, published ev = true
  late_iff : LateFailure w.log ↔ late

variable {os fs₀ tmp final}

theorem Quiet.append {log : List (Performed (D × String))} {ev : Performed (D × String)} (h : Quiet os fs₀ final log)
    (hpublished : published ev = false) (hheld : held os ev.after final = held os fs₀ final) :
    Quiet os fs₀ final (log ++ [ev]) := by
  intro ev' hev'
  rcases mem_append.mp hev' with hev' | hev'
  · exact h ev' hev'
  · rw [mem_singleton.mp hev']
    exact ⟨hpublished, hheld⟩

/-- Another name holds what it held. -/
theorem held_withFile [DecidableEq D] {key : D × String} (hne : os.locate final ≠ some key) (content : Bytes) :
    held os (fs₀.withFile key content) final = held os fs₀ final := by
  unfold held
  cases hlocate : os.locate final with
  | none => rfl
  | some key' =>
    refine holds_withFile_of_ne ?_ content
    rintro rfl
    exact hne hlocate

theorem Untouched.failed {w : OsWorld D} (h : Untouched os fs₀ final w) : Failed os fs₀ final w := by
  obtain ⟨hfs, hquiet⟩ := h
  exact ⟨by rw [hfs], .inl fun key _ => by rw [hfs], hquiet⟩

/-- Later calls keep what has been published. -/
theorem Published.step {body : Bytes} {late : Prop} {w : OsWorld D}
    (h : Published os fs₀ final body late w) (ev : Performed (D × String)) (hafter : ev.after = w.fs) :
    Published os fs₀ final body (late ∨ fatal ev = true) ⟨w.fs, w.log ++ [ev]⟩ where
  empty := h.empty
  held_eq := h.held_eq
  others := h.others.imp_right fun ⟨ev', hev', hfailed⟩ => ⟨ev', mem_append_left _ hev', hfailed⟩
  moments ev' hev' := by
    rcases mem_append.mp hev' with hev' | hev'
    · exact h.moments ev' hev'
    · rw [mem_singleton.mp hev', hafter]
      exact .inr h.held_eq
  linked := h.linked.imp fun ev' hev' => ⟨mem_append_left _ hev'.1, hev'.2⟩
  late_iff := by rw [lateFailure_append h.linked, h.late_iff]

end States

/-! ## Blocks -/

section Blocks

variable {D : Type} [DecidableEq D] {os : Os D} {fs₀ : OsStore D} {tmp final : String}

omit [DecidableEq D] in
theorem spec_uncaught {α : Type} {m : Sys (D × String) OSError α} {P : OsWorld D → Prop}
    {Q : α → OsWorld D → Prop} {E : OsWorld D → Prop} (h : Spec P m Q fun _ => E) :
    Spec P (uncaught m) Q fun _ => E :=
  h.handle fun _ => Spec.raise fun _ hw => hw

/-- A call on something else keeps the temporary file. -/
theorem Temp.step {content : Bytes} {w : OsWorld D} {ev : Performed (D × String)}
    (h : Temp os fs₀ tmp final content w) (hne : ∀ key, os.locate tmp = some key → os.locate final ≠ some key)
    (hafter : ev.after = w.fs) (hpublished : published ev = false) :
    Temp os fs₀ tmp final content ⟨w.fs, w.log ++ [ev]⟩ := by
  obtain ⟨key, htmp, hempty, hfs⟩ := h.fs_eq
  refine ⟨⟨key, htmp, hempty, hfs⟩, h.quiet.append hpublished ?_⟩
  rw [hafter, hfs, held_withFile (hne key htmp)]

variable (hne : ∀ key, os.locate tmp = some key → os.locate final ≠ some key)

include hne

theorem spec_createTemp (directory : String) : Spec (Untouched os fs₀ final) (createTemp os directory tmp)
      (fun inode w => inode = fs₀.next ∧ Temp os fs₀ tmp final [] w) fun _ => Untouched os fs₀ final := by
  refine Spec.handle (D := fun _ => Untouched os fs₀ final) (spec_call ?_ ?_) fun e => Spec.raise fun _ hw => hw
  · rintro w ⟨hfs, hquiet⟩ n inode fs heffect
    cases htmp : os.locate tmp with
    | none =>
      rw [htmp] at heffect
      cases heffect
    | some key =>
      rw [htmp] at heffect
      dsimp only at heffect
      split at heffect
      · cases heffect
      · rename_i hempty
        obtain ⟨rfl, rfl⟩ := Prod.mk.inj (Except.ok.inj heffect)
        rw [hfs] at hempty ⊢
        refine ⟨rfl, ⟨key, htmp, by simpa using hempty, rfl⟩, hquiet.append rfl ?_⟩
        exact held_withFile (hne key htmp) []
  · rintro w ⟨hfs, hquiet⟩ e
    exact ⟨hfs, hquiet.append rfl (by rw [hfs])⟩

theorem spec_touch_temp {c : SysCall (D × String)} {content : Bytes}
    (hc : ∀ e fs, published ⟨c, e, fs⟩ = false) :
    Spec (Temp os fs₀ tmp final content) (uncaught (touch os.oracle c)) (fun _ => Temp os fs₀ tmp final content)
      fun _ => Temp os fs₀ tmp final content :=
  spec_uncaught (spec_touch (fun _ hw => hw.step hne rfl (hc _ _)) fun _ hw _ => hw.step hne rfl (hc _ _))

theorem spec_writeAll_temp (body : Bytes) :
    Spec (Temp os fs₀ tmp final []) (uncaught (writeAll os.oracle fs₀.next body))
      (fun _ => Temp os fs₀ tmp final body) fun _ w => ∃ b, Temp os fs₀ tmp final b w := by
  refine spec_uncaught (spec_writeAll (I := Temp os fs₀ tmp final) ?_ ?_ [] body rfl)
  · intro w b c view _ _ hw
    obtain ⟨key, htmp, hempty, hfs⟩ := hw.fs_eq
    have happend : w.fs.append fs₀.next c = fs₀.withFile key (b ++ c) := by rw [hfs, append_withFile]
    refine ⟨⟨key, htmp, hempty, happend⟩, hw.quiet.append rfl ?_⟩
    dsimp only
    rw [happend, held_withFile (hne key htmp)]
  · exact fun w b view e hw => ⟨b, hw.step hne rfl rfl⟩

theorem spec_writeTemp (body : Bytes) :
    Spec (Temp os fs₀ tmp final []) (writeTemp os fs₀.next body) (fun _ => Temp os fs₀ tmp final body)
      fun _ w => ∃ b, Temp os fs₀ tmp final b w := by
  have htouch : ∀ {b : Bytes} {c : SysCall (D × String)}, (∀ e fs, published ⟨c, e, fs⟩ = false) →
      Spec (Temp os fs₀ tmp final b) (uncaught (touch os.oracle c)) (fun _ => Temp os fs₀ tmp final b)
        fun _ w => ∃ b, Temp os fs₀ tmp final b w := fun hc =>
    (spec_touch_temp hne hc).weaken fun _ _ hw => ⟨_, hw⟩
  refine Spec.ensure (Q := fun _ => Temp os fs₀ tmp final body) (E := fun _ w => ∃ b, Temp os fs₀ tmp final b w)
    ?_ (fun _ => htouch fun _ _ => rfl) fun _ => ?_
  · have hrest := (spec_writeAll_temp hne body).bind fun _ => htouch (c := .fsync (.file fs₀.next)) fun _ _ => rfl
    split
    · exact (htouch fun _ _ => rfl).bind fun _ => hrest
    · exact hrest
  · rintro w ⟨b, hw⟩
    have hclose := @spec_touch_temp D _ os fs₀ tmp final hne (.close (.file fs₀.next)) b fun _ _ => rfl
    exact hclose.mono (fun _ hw => hw) (fun _ _ hw => ⟨b, hw⟩) (fun _ _ hw => ⟨b, hw⟩) w hw

/-- The link is made if there is nothing under the path. -/
theorem spec_publish (body : Bytes) :
    Spec (Temp os fs₀ tmp final body) (publish os tmp final) (fun _ => Linked os fs₀ tmp final body)
      fun _ => Temp os fs₀ tmp final body := by
  refine Spec.handle (D := fun _ => Temp os fs₀ tmp final body) (spec_call ?_ ?_) fun e => ?_
  · intro w hw n u fs heffect
    obtain ⟨key, htmp, hempty, hfs⟩ := hw.fs_eq
    rw [htmp] at heffect
    cases hfinal : os.locate final with
    | none =>
      rw [hfinal] at heffect
      cases heffect
    | some key' =>
      rw [hfinal] at heffect
      dsimp only at heffect
      split_ifs at heffect with htemp hexists
      obtain ⟨-, rfl⟩ := Prod.mk.inj (Except.ok.inj heffect)
      have hkey : key' ≠ key := by
        rintro rfl
        exact hne key' htmp hfinal
      have hentry : fs₀.entry key' = none := by
        rw [hfs] at hexists
        simpa [withFile, hkey] using hexists
      exact ⟨⟨key, key', htmp, hfinal, hempty, hentry, by rw [hfs]⟩, ⟨_, _, rfl, hw.quiet, rfl, rfl⟩⟩
  · exact fun w hw e => hw.step hne rfl rfl
  · split
    · exact Spec.raise fun _ hw => hw
    · exact Spec.raise fun _ hw => hw

/-- Without a link, removing the temporary name brings back what was there before. -/
theorem spec_removeTemp_temp :
    Spec (fun w => ∃ b, Temp os fs₀ tmp final b w) (removeTemp os tmp) (fun _ => Failed os fs₀ final)
      fun _ => Failed os fs₀ final := by
  refine Spec.handle (D := fun _ => Failed os fs₀ final) (spec_call ?_ ?_) fun e => ?_
  · rintro w ⟨b, hw⟩ n u fs heffect
    obtain ⟨key, htmp, hempty, hfs⟩ := hw.fs_eq
    rw [htmp] at heffect
    dsimp only at heffect
    split_ifs at heffect
    obtain ⟨-, rfl⟩ := Prod.mk.inj (Except.ok.inj heffect)
    have hholds : ∀ l, (w.fs.unlink key).holds l = fs₀.holds l := by
      intro l
      by_cases hl : l = key
      · rw [hl, holds_unlink, holds_eq_none.mpr hempty]
      · rw [holds_unlink_of_ne hl, hfs, holds_withFile_of_ne hl]
    have hheld : held os (w.fs.unlink key) final = held os fs₀ final := by
      unfold held
      rw [funext hholds]
    exact ⟨hheld, .inl fun l _ => hholds l, hw.quiet.append rfl hheld⟩
  · rintro w ⟨b, hw⟩ e
    obtain ⟨key, htmp, -, hfs⟩ := hw.fs_eq
    have hheld : held os w.fs final = held os fs₀ final := by rw [hfs, held_withFile (hne key htmp)]
    exact ⟨hheld, .inr ⟨_, mem_append_right _ mem_cons_self, rfl⟩, hw.quiet.append rfl hheld⟩
  · split
    · exact Spec.pure fun _ hw => hw
    · exact Spec.raise fun _ hw => hw

omit hne in
/-- Behind the link the path holds the body, whatever comes of the temporary name. -/
theorem Linked.published {body : Bytes} {w : OsWorld D} (h : Linked os fs₀ tmp final body w)
    (ev : Performed (D × String)) (hheld : held os ev.after final = held os w.fs final)
    (hothers : (∀ key, os.locate final ≠ some key → ev.after.holds key = fs₀.holds key) ∨ unlinkFailed ev = true) :
    Published os fs₀ final body (fatal ev = true) ⟨ev.after, w.log ++ [ev]⟩ := by
  obtain ⟨key, key', htmp, hfinal, hempty, hempty', hfs⟩ := h.fs_eq
  obtain ⟨log, link, hlog, hquiet, hlink, hafter⟩ := h.log_eq
  have hnone : held os fs₀ final = none := by
    rw [held, hfinal, Option.bind_some, holds_eq_none]
    exact hempty'
  have hbody : held os w.fs final = some (.file body) := by
    rw [held, hfinal, Option.bind_some, hfs, holds_link, holds_withFile]
  have hlinked : ∃ ev ∈ w.log, Python.published ev = true :=
    ⟨link, by rw [hlog]; exact mem_append_right _ mem_cons_self, hlink⟩
  have hlate : ¬LateFailure w.log := by
    rw [hlog]
    exact not_lateFailure_link (fun ev hev => (hquiet ev hev).1) hlink
  refine ⟨hnone, hheld.trans hbody, ?_, fun ev' hev' => ?_, ?_, ?_⟩
  · exact hothers.imp_right fun hfailed => ⟨ev, mem_append_right _ mem_cons_self, hfailed⟩
  · rw [hlog] at hev'
    rcases mem_append.mp hev' with hev' | hev'
    · rcases mem_append.mp hev' with hev' | hev'
      · exact .inl ((hquiet ev' hev').2.trans hnone)
      · rw [mem_singleton.mp hev', hafter]
        exact .inr hbody
    · rw [mem_singleton.mp hev']
      exact .inr (hheld.trans hbody)
  · exact hlinked.imp fun ev' hev' => ⟨mem_append_left _ hev'.1, hev'.2⟩
  · rw [lateFailure_append hlinked]
    exact or_iff_right hlate

theorem spec_removeTemp_linked (body : Bytes) :
    Spec (Linked os fs₀ tmp final body) (removeTemp os tmp) (fun _ => Published os fs₀ final body False)
      fun _ => Published os fs₀ final body True := by
  refine Spec.handle (D := fun e => Published os fs₀ final body (e.errno ≠ .enoent)) (spec_call ?_ ?_) fun e => ?_
  · intro w hw n u fs heffect
    obtain ⟨key, key', htmp, hfinal, hempty, -, hfs⟩ := hw.fs_eq
    rw [htmp] at heffect
    dsimp only at heffect
    split_ifs at heffect
    obtain ⟨-, rfl⟩ := Prod.mk.inj (Except.ok.inj heffect)
    have hkey : key' ≠ key := by
      rintro rfl
      exact hne key' htmp hfinal
    have hpublished := hw.published ⟨.unlink (os.locate tmp), none, w.fs.unlink key⟩
      (by rw [held, held, hfinal, Option.bind_some, Option.bind_some, holds_unlink_of_ne hkey]) (.inl ?_)
    · simpa only [fatal, Bool.false_eq_true, htmp] using hpublished
    · intro l hl
      have hl' : l ≠ key' := fun heq => hl (by rw [hfinal, heq])
      by_cases hlkey : l = key
      · rw [hlkey, holds_unlink, holds_eq_none.mpr hempty]
      · rw [holds_unlink_of_ne hlkey, hfs, holds_link_of_ne hl',
          holds_withFile_of_ne hlkey]
  · intro w hw e
    have hpublished := hw.published ⟨.unlink (os.locate tmp), some e, w.fs⟩ rfl (.inr rfl)
    simpa only [fatal, decide_eq_true_eq] using hpublished
  · split
    · rename_i herrno
      refine Spec.pure fun _ hw => ?_
      simpa only [herrno, ne_eq, not_true_eq_false] using hw
    · rename_i herrno
      refine Spec.raise fun _ hw => ?_
      simpa only [ne_eq, herrno, not_false_eq_true] using hw

omit hne [DecidableEq D] in
/-- A failure is remembered, and the path keeps the body. -/
theorem spec_touch_published {c : SysCall (D × String)} {body : Bytes} {late : Prop}
    (hok : ∀ fs, fatal ⟨c, none, fs⟩ = false) (herror : ∀ e fs, fatal ⟨c, some e, fs⟩ = true) :
    Spec (Published os fs₀ final body late) (uncaught (touch os.oracle c)) (fun _ => Published os fs₀ final body late)
      fun _ => Published os fs₀ final body True := by
  refine spec_uncaught (spec_touch (fun w hw => ?_) fun w hw e => ?_)
  · have h := hw.step ⟨c, none, w.fs⟩ rfl
    rwa [hok, Bool.false_eq_true, or_false] at h
  · have h := hw.step ⟨c, some e, w.fs⟩ rfl
    rwa [herror, eq_self, or_true] at h

omit hne [DecidableEq D] in
theorem spec_fsyncDir (directory : String) (body : Bytes) :
    Spec (Published os fs₀ final body False) (fsyncDir os directory) (fun _ => Published os fs₀ final body False)
      fun _ => Published os fs₀ final body True := by
  unfold fsyncDir
  split
  · exact Spec.pure fun _ hw => hw
  · refine (spec_touch_published (fun _ => rfl) fun _ _ => rfl).bind fun _ => ?_
    have hclose : ∀ {late : Prop}, Spec (Published os fs₀ final body late) _ _ _ :=
      spec_touch_published (c := .close (.directory directory)) (fun _ => rfl) fun _ _ => rfl
    exact Spec.ensure (spec_touch_published (fun _ => rfl) fun _ _ => rfl) (fun _ => hclose) fun _ => hclose

end Blocks

/-! ## The whole -/

section Whole

variable {D : Type} [DecidableEq D] (os : Os D) (k : Signer) (drawn : Drawn) (path : String)
  (agentId tenant endpoint : Given CodePoint)

/-- The bytes of the file that is created. -/
def IsBody (body : Bytes) : Prop :=
  ∃ a t e, agentId = .str a ∧ tenant = .str t ∧ endpoint = .str e ∧
    identityFileBody k drawn.agent a t e = .ok body

theorem slash_not_mem_tempName (path : String) (token : Bytes) : '/' ∉ tempName path token := by
  have hdigit : ∀ n < 16, RustText.hexDigit n ≠ '/' := by decide
  have hhex : '/' ∉ (hexText token).toList := by
    rw [hexText, RustText.hex, String.toList_ofList, mem_flatMap]
    rintro ⟨n, -, hn⟩
    have hlt := n.toNat_lt
    simp only [mem_cons, not_mem_nil, or_false] at hn
    rcases hn with hn | hn
    · exact hdigit _ (by omega) hn.symm
    · exact hdigit _ (by omega) hn.symm
  simp only [tempName, cons_append, mem_cons, mem_append, not_or]
  exact ⟨by decide, ⟨PosixPath.slash_not_mem_basename _, by decide, hhex⟩, by decide⟩

omit [DecidableEq D] in
/-- The temporary file never stands under the path itself. -/
theorem tempPath_ne (key : D × String) (h : os.locate (tempPath os path drawn.token) = some key) :
    os.locate path ≠ some key := by
  intro hpath
  have hslash := slash_not_mem_tempName path drawn.token
  have htmp := os.name_eq _ key.1 key.2 h
  have hname := os.name_eq _ key.1 key.2 hpath
  rw [tempPath, String.toList_ofList, PosixPath.basename_join hslash, hname] at htmp
  have hlength := congrArg List.length htmp
  simp only [tempName, length_append, length_cons] at hlength
  omega

theorem requireText_ok {name : String} {g : Given CodePoint} {s : List CodePoint} (h : requireText name g = .ok s) :
    g = .str s := by
  unfold requireText at h
  split at h
  · rw [Except.ok.inj h]
  · cases h

theorem spec_writeAtomic {fs₀ : OsStore D} {tmp : String}
    (hne : ∀ key, os.locate tmp = some key → os.locate path ≠ some key) (directory : String) (body : Bytes) :
    Spec (Untouched os fs₀ path) (writeAtomic os directory tmp path body)
      (fun _ => Published os fs₀ path body False)
      fun _ w => Failed os fs₀ path w ∨ Published os fs₀ path body True w := by
  refine Spec.bind ((spec_createTemp hne directory).weaken fun _ _ hw => .inl hw.failed) fun inode => ?_
  rintro w ⟨rfl, hw⟩
  have hwritten : Spec (Temp os fs₀ tmp path []) (do writeTemp os fs₀.next body; publish os tmp path)
      (fun _ => Linked os fs₀ tmp path body) fun _ w => ∃ b, Temp os fs₀ tmp path b w :=
    (spec_writeTemp hne body).bind fun _ => (spec_publish hne body).weaken fun _ _ hw => ⟨body, hw⟩
  have hremoved : Spec (Temp os fs₀ tmp path [])
      (ensure (do writeTemp os fs₀.next body; publish os tmp path) (removeTemp os tmp))
      (fun _ => Published os fs₀ path body False)
      fun _ w => Failed os fs₀ path w ∨ Published os fs₀ path body True w := by
    refine hwritten.ensure (fun _ => ?_) fun _ => ?_
    · exact (spec_removeTemp_linked hne body).weaken fun _ _ hw => .inr hw
    · exact (spec_removeTemp_temp hne).mono (fun _ hw => hw) (fun _ _ hw => .inl hw) fun _ _ hw => .inl hw
  have hsynced := (spec_fsyncDir directory body).weaken fun _ w (hw : Published os fs₀ path body True w) =>
    (.inr hw : Failed os fs₀ path w ∨ _)
  exact (hremoved.bind fun _ => hsynced) w hw

/-- Where a run that raises has got to. -/
def Stopped (fs₀ : OsStore D) (w : OsWorld D) : Prop :=
  Failed os fs₀ path w ∨ ∃ body, IsBody k drawn agentId tenant endpoint body ∧ Published os fs₀ path body True w

/-- **Every run ends with the body published and nothing failed since, or raises.** -/
theorem spec_createIdentityFile (fs₀ : OsStore D) :
    Spec (fun w => w = ⟨fs₀, []⟩) (createIdentityFile os k drawn path agentId tenant endpoint)
      (fun _ w => ∃ body, IsBody k drawn agentId tenant endpoint body ∧ Published os fs₀ path body False w)
      fun _ => Stopped os k drawn path agentId tenant endpoint fs₀ := by
  have hstart : Untouched os fs₀ path ⟨fs₀, []⟩ := ⟨rfl, fun _ hev => nomatch hev⟩
  -- what is raised before the first call has changed nothing
  have hchecked : ∀ {α : Type} (r : Except CreateRaised α), Spec (fun w => w = ⟨fs₀, []⟩) (ofExcept r)
      (fun a w => r = .ok a ∧ w = ⟨fs₀, []⟩) fun _ => Stopped os k drawn path agentId tenant endpoint fs₀ := by
    intro α r
    refine Spec.ofExcept (fun a h w hw => ⟨h, hw⟩) ?_
    rintro e - w rfl
    exact .inl hstart.failed
  unfold createIdentityFile
  refine (hchecked _).bind fun a => ?_
  rintro _ ⟨ha, rfl⟩
  refine ((hchecked _).bind fun t => ?_) _ rfl
  rintro _ ⟨ht, rfl⟩
  refine ((hchecked _).bind fun e => ?_) _ rfl
  rintro _ ⟨he, rfl⟩
  refine ((hchecked _).bind fun body => ?_) _ rfl
  rintro _ ⟨hbody, rfl⟩
  have hbody := Checked.mapError_ok.mp hbody
  have his : IsBody k drawn agentId tenant endpoint body :=
    ⟨a, t, e, requireText_ok ha, requireText_ok ht, requireText_ok he, hbody⟩
  obtain ⟨aid, haid, -⟩ := Checked.bind_ok.mp hbody
  rw [haid]
  have hwritten : Spec (fun w => w = ⟨fs₀, []⟩)
      (writeAtomic os (directoryOf os path) (tempPath os path drawn.token) path body)
      (fun _ => Published os fs₀ path body False) fun _ => Stopped os k drawn path agentId tenant endpoint fs₀ :=
    (spec_writeAtomic os path (tempPath_ne os drawn path) (directoryOf os path) body).mono (fun _ hw => hw ▸ hstart)
      (fun _ _ hw => hw) fun _ _ hw => hw.imp_right fun hw => ⟨body, his, hw⟩
  refine (hwritten.bind fun _ => ?_) _ rfl
  exact Spec.bind (Spec.ofExcept (fun _ _ _ hw => hw) nofun) fun _ => Spec.pure fun _ hw => ⟨body, his, hw⟩

/-- A run from a file system on. -/
def creation (fs₀ : OsStore D) : Except CreateRaised (String × String) × OsWorld D :=
  createIdentityFile os k drawn path agentId tenant endpoint ⟨fs₀, []⟩

/-- Every state that a run has passed through. -/
def moments (w : OsWorld D) : List (OsStore D) := w.fs :: w.log.map Performed.after

omit [DecidableEq D] in
variable {os path} in
theorem Failed.held_moments {fs₀ : OsStore D} {w : OsWorld D} (h : Failed os fs₀ path w) :
    ∀ fs ∈ moments w, held os fs path = held os fs₀ path := by
  refine forall_mem_cons.mpr ⟨h.held_eq, fun fs hfs => ?_⟩
  obtain ⟨ev, hev, rfl⟩ := mem_map.mp hfs
  exact (h.quiet ev hev).2

omit [DecidableEq D] in
variable {os path} in
theorem Published.held_moments {fs₀ : OsStore D} {body : Bytes} {late : Prop} {w : OsWorld D}
    (h : Published os fs₀ path body late w) :
    ∀ fs ∈ Python.moments w, held os fs path = held os fs₀ path ∨ held os fs path = some (.file body) := by
  refine forall_mem_cons.mpr ⟨.inr h.held_eq, fun fs hfs => ?_⟩
  obtain ⟨ev, hev, rfl⟩ := mem_map.mp hfs
  rw [h.empty]
  exact h.moments ev hev

/-- **Creation is all or nothing, unless a call fails behind the hard link.** -/
theorem identity_creation_iff (fs₀ : OsStore D) :
    let r := creation os k drawn path agentId tenant endpoint fs₀
    (∀ fs ∈ moments r.2, held os fs path = held os fs₀ path ∨
      ∃ body, IsBody k drawn agentId tenant endpoint body ∧ held os fs path = some (.file body)) ∧
    (held os fs₀ path ≠ none →
      (∀ fs ∈ moments r.2, held os fs path = held os fs₀ path) ∧ ∃ e, r.1 = .error e) ∧
    (((∃ e, r.1 = .error e) → held os r.2.fs path = held os fs₀ path) ↔ ¬LateFailure r.2.log) ∧
    ((∃ e, r.1 = .error e) →
      (∀ key, os.locate path ≠ some key → r.2.fs.holds key = fs₀.holds key) ∨
        ∃ ev ∈ r.2.log, unlinkFailed ev = true) := by
  intro r
  have hends := spec_createIdentityFile os k drawn path agentId tenant endpoint fs₀ ⟨fs₀, []⟩ rfl
  change Ends _ _ r at hends
  obtain ⟨result, w⟩ := r
  cases result with
  | ok a =>
    obtain ⟨body, hbody, hw⟩ := hends
    refine ⟨fun fs hfs => ?_, fun hheld => absurd hw.empty hheld, ?_, ?_⟩
    · exact (hw.held_moments fs hfs).imp_right fun h => ⟨body, hbody, h⟩
    · exact ⟨fun _ => hw.late_iff.mp, fun _ => nofun⟩
    · exact fun _ => hw.others
  | error e =>
    rcases hends with hw | ⟨body, hbody, hw⟩
    · have hmoments := hw.held_moments
      refine ⟨fun fs hfs => .inl (hmoments fs hfs), fun _ => ⟨hmoments, e, rfl⟩, ?_, fun _ => hw.others⟩
      exact ⟨fun _ => not_lateFailure_of_unpublished fun ev hev => (hw.quiet ev hev).1, fun _ _ => hw.held_eq⟩
    · refine ⟨fun fs hfs => ?_, fun hheld => absurd hw.empty hheld, ?_, fun _ => hw.others⟩
      · exact (hw.held_moments fs hfs).imp_right fun h => ⟨body, hbody, h⟩
      · refine ⟨fun h => ?_, fun h => absurd (hw.late_iff.mpr trivial) h⟩
        have hsame := h ⟨e, rfl⟩
        rw [hw.held_eq, hw.empty] at hsame
        cases hsame

end Whole

/-! ## A directory that cannot be synced -/

section Late

def ioError : OSError := ⟨.other 5, "Input/output error"⟩

/-- One directory; every call goes ahead but the seventh, which opens the directory. -/
def lateOs (n : Nat) : Os Unit where
  locate p := some ((), String.ofList (PosixPath.basename p.toList))
  name_eq p d name h := by
    cases h
    exact String.toList_ofList
  cwd := "/"
  posix := true
  hasFchmod := false
  oracle i := if i = 6 then .fail ioError else .go n

def noFiles : OsStore Unit := ⟨fun _ => none, fun _ => .directory, 0, nofun⟩

section Run

variable {n : Nat} {log : List (Performed (Unit × String))}

theorem lateOs_go (h : log.length ≠ 6) : (lateOs n).oracle log.length = .go n := if_neg h

/-- Any call but the seventh. -/
theorem go_late {α : Type} {c : SysCall (Unit × String)} {f : Nat → OsStore Unit → Except OSError (α × OsStore Unit)}
    {h : OSError → OsRun Unit α} {a : α} {fs fs' : OsStore Unit} {k : Nat} (hlog : log.length = k) (hk : k ≠ 6)
    (hf : f n fs = .ok (a, fs')) :
    ∃ log', log'.length = k + 1 ∧ handle (call (lateOs n).oracle c f) h ⟨fs, log⟩ = (.ok a, ⟨fs', log'⟩) :=
  ⟨_, by rw [length_append, hlog]; rfl, handle_of_ok (call_of_go (lateOs_go (hlog ▸ hk)) hf)⟩

theorem touch_late (n : Nat) (c : SysCall (Unit × String)) (fs : OsStore Unit) {k : Nat} (hlog : log.length = k)
    (hk : k ≠ 6) : ∃ log', log'.length = k + 1 ∧
      uncaught (touch (lateOs n).oracle c) ⟨fs, log⟩ = (.ok (), ⟨fs, log'⟩) :=
  go_late hlog hk rfl

theorem writeTemp_late (key : Unit × String) {body : Bytes} (hbody : body ≠ []) (hn : body.length ≤ n)
    (hlog : log.length = 1) : ∃ log', log'.length = 4 ∧
      writeTemp (lateOs n) 0 body ⟨noFiles.withFile key [], log⟩ = (.ok (), ⟨noFiles.withFile key body, log'⟩) := by
  have happend : (noFiles.withFile key []).append 0 body = noFiles.withFile key body :=
    append_withFile key [] body
  obtain ⟨log', hlog', hall⟩ : ∃ log', log'.length = 2 ∧
      writeAll (lateOs n).oracle 0 body ⟨noFiles.withFile key [], log⟩ = (.ok (), ⟨noFiles.withFile key body, log'⟩) := by
    rw [← happend]
    exact ⟨_, by rw [length_append, hlog]; rfl, writeAll_once hbody hn (lateOs_go (show log.length ≠ 6 by omega))⟩
  obtain ⟨log₁, hlog₁, hsync⟩ := touch_late n (.fsync (.file 0)) _ hlog' (by decide)
  obtain ⟨log₂, hlog₂, hclose⟩ := touch_late n (.close (.file 0)) _ hlog₁ (by decide)
  exact ⟨log₂, hlog₂, ensure_of_ok ((bind_of_ok (handle_of_ok hall)).trans hsync) hclose⟩

theorem fsyncDir_late (n : Nat) (directory : String) (fs : OsStore Unit) (hlog : log.length = 6) :
    ∃ log', fsyncDir (lateOs n) directory ⟨fs, log⟩ = (.error (.osError ioError), ⟨fs, log'⟩) := by
  have hfail : (lateOs n).oracle log.length = .fail ioError := by
    rw [hlog]
    rfl
  exact ⟨_, bind_of_error (handle_of_error (call_of_fail hfail))⟩

/-- The body is published, and then the directory is not opened. -/
theorem writeAtomic_late (directory : String) {tmp path : String} {body : Bytes} (hbody : body ≠ [])
    (hn : body.length ≤ n) (hne : ∀ key, (lateOs n).locate tmp = some key → (lateOs n).locate path ≠ some key) : ∃ w,
    writeAtomic (lateOs n) directory tmp path body ⟨noFiles, []⟩ = (.error (.osError ioError), w) ∧
      held (lateOs n) w.fs path = some (.file body) := by
  obtain ⟨key, hkey⟩ : ∃ key, (lateOs n).locate tmp = some key := ⟨_, rfl⟩
  obtain ⟨key', hkey'⟩ : ∃ key', (lateOs n).locate path = some key' := ⟨_, rfl⟩
  have hkeys : key' ≠ key := by
    rintro rfl
    exact hne key' hkey hkey'
  let linked := (noFiles.withFile key body).link key key'
  obtain ⟨log₁, hlog₁, hcreate⟩ : ∃ log, log.length = 1 ∧
      createTemp (lateOs n) directory tmp ⟨noFiles, []⟩ = (.ok 0, ⟨noFiles.withFile key [], log⟩) := by
    refine go_late rfl (by decide) ?_
    rw [hkey]
    rfl
  obtain ⟨log₂, hlog₂, hwrite⟩ := writeTemp_late key hbody hn hlog₁
  obtain ⟨log₃, hlog₃, hpublish⟩ : ∃ log, log.length = 5 ∧
      publish (lateOs n) tmp path ⟨noFiles.withFile key body, log₂⟩ = (.ok (), ⟨linked, log⟩) := by
    refine go_late hlog₂ (by decide) ?_
    rw [hkey, hkey']
    simp [withFile, noFiles, hkeys, linked]
  obtain ⟨log₄, hlog₄, hremove⟩ : ∃ log, log.length = 6 ∧
      removeTemp (lateOs n) tmp ⟨linked, log₃⟩ = (.ok (), ⟨linked.unlink key, log⟩) := by
    refine go_late hlog₃ (by decide) ?_
    rw [hkey]
    simp [FileStore.withFile, FileStore.link, hkeys.symm, linked]
  obtain ⟨log₅, hsync⟩ := fsyncDir_late n directory (linked.unlink key) hlog₄
  refine ⟨⟨linked.unlink key, log₅⟩, ?_, ?_⟩
  · unfold writeAtomic
    rw [bind_of_ok hcreate, bind_of_ok (ensure_of_ok ((bind_of_ok hwrite).trans hpublish) hremove)]
    exact hsync
  · rw [held, hkey', Option.bind_some, holds_unlink_of_ne hkeys, holds_link,
      holds_withFile]

end Run

def zeroDrawn : Drawn := ⟨⟨List.replicate 32 0, rfl⟩, List.replicate 8 0⟩

/-- **A file is published, and the call raises all the same.** -/
theorem identity_published_and_raised : ∃ n body w,
    creation (lateOs n) seedSigner zeroDrawn "/id.json" (.str (codes "a")) (.str (codes "t")) (.str (codes "e"))
      noFiles = (.error (.osError ioError), w) ∧
    held (lateOs n) noFiles "/id.json" = none ∧ held (lateOs n) w.fs "/id.json" = some (.file body) := by
  obtain ⟨body, hbody⟩ : ∃ body,
    identityFileBody seedSigner zeroDrawn.agent (codes "a") (codes "t") (codes "e") = .ok body := ⟨_, rfl⟩
  have hnil : body ≠ [] := by
    obtain ⟨aid, -, hpure⟩ := Checked.bind_ok.mp hbody
    rw [← Checked.pure_ok.mp hpure]
    exact List.append_ne_nil_of_right_ne_nil _ (by decide)
  obtain ⟨w, hw, hheld⟩ := writeAtomic_late (directoryOf (lateOs body.length) "/id.json") hnil (le_refl _)
    (tempPath_ne (lateOs body.length) zeroDrawn "/id.json")
  refine ⟨body.length, body, w, ?_, rfl, hheld⟩
  have hcheck : ∀ name s, s ≠ [] → requireText name (.str s) = .ok s := by
    rintro name (_ | ⟨c, s⟩) hs
    · exact absurd rfl hs
    · rfl
  unfold creation createIdentityFile
  rw [ofExcept_bind_of_ok (hcheck _ (codes "a") (by decide)), ofExcept_bind_of_ok (hcheck _ (codes "t") (by decide)),
    ofExcept_bind_of_ok (hcheck _ (codes "e") (by decide)), ofExcept_bind_of_ok (Checked.mapError_ok.mpr hbody)]
  exact bind_of_error hw

end Late

end SeamSdk.Python
