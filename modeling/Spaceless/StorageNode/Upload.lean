import Spaceless.StorageNode.Sharing

/-!
# What an upload leaves in its file

The fragments of an upload are put in order through one session, and
anything that puts nothing to the file may happen in between.  They are
written over what the stream of the file showed before, so the file ends up
with the fragments exactly when that was not longer.
-/

namespace Spaceless
namespace StorageNode

open Logic Foundation Protocol

namespace Storage

variable (permits : FileMode → Text → Bool)

/-- The request is accepted and puts a fragment to the file. -/
def PutsTo (storage : Storage) (filename : Text) : NodeCall → Prop
  | .putFile request =>
      (putFragment permits request storage).1 = .ok () ∧
        ∃ session,
          storage.sessions.findSession request.sessionId = some session ∧
            session.filename = filename
  | _ => False

/-- Requests that put nothing to the file lead from the first state to the
second. -/
inductive Meanwhile (filename : Text) : Storage → Storage → Prop
  | refl (storage : Storage) : Meanwhile filename storage storage
  | next {first storage} (before : Meanwhile filename first storage)
      (call : NodeCall) (other : ¬PutsTo permits storage filename call) :
      Meanwhile filename first (storage.next permits call)

/-- From the first state to the second the session has accepted the fragments
in order, the last one just now, and nothing else was put to its file. -/
inductive Accepted (session : FileSession) :
    Storage → List (List UInt8) → Storage → Prop
  | none (storage : Storage) : Accepted session storage [] storage
  | next {first storage middle later fragments}
      (before : Accepted session first fragments storage)
      (meanwhile : Meanwhile permits session.filename storage middle)
      (fragment : List UInt8)
      (put : putFragment permits
        { sessionId := session.sessionId, fragmentIndex := fragments.length
          fragmentContent := fragment } middle = (.ok (), later)) :
      Accepted session first (fragments ++ [fragment]) later

/-- What the upload is written over: what the stream of the file shows, or
all that is stored when there is nothing to write. -/
def oldContent (storage : Storage) (filename : Text)
    (fragments : List (List UInt8)) : List UInt8 :=
  if fragments = [] then
    storage.files.contentOf (storage.files.getAbsolutePath filename)
  else storage.files.shown (storage.files.getAbsolutePath filename)

/-- The id stands for the session, or for none any more. -/
structure Names (storage : Storage) (session : FileSession) : Prop where
  keyed : storage.sessions.Keyed
  used : session.sessionId < storage.sessions.nextId
  unique : ∀ other,
    storage.sessions.findSession session.sessionId = some other →
      other = session

variable {permits}

/-! ## One request -/

/-- A request takes no session id back. -/
theorem origin_next {storage : Storage} (keyed : storage.sessions.Keyed)
    (call : NodeCall) :
    storage.sessions.nextId ≤ (storage.next permits call).sessions.nextId ∧
      ∀ sessionId session, sessionId < storage.sessions.nextId →
        (storage.next permits call).sessions.findSession sessionId =
          some session →
        storage.sessions.findSession sessionId = some session := by
  rcases SharedNode.sessions_next keyed call with
    ⟨filename, outcome, run, ran⟩ | ⟨sessionId, removed⟩ | same
  · rw [ran]
    exact run.origin
  · rw [removed]
    exact ⟨Int.le_refl _, fun _ _ _ found =>
      Table.lookup_of_lookup_erase found⟩
  · rw [same]
    exact ⟨Int.le_refl _, fun _ _ _ found => found⟩

theorem Names.next {storage : Storage} {session : FileSession}
    (names : storage.Names session) (call : NodeCall) :
    (storage.next permits call).Names session := by
  obtain ⟨grows, origin⟩ := @origin_next permits storage names.keyed call
  exact ⟨SharedNode.keyed_next names.keyed call,
    Int.lt_of_lt_of_le names.used grows,
    fun other found => names.unique other (origin _ _ names.used found)⟩

variable (permits) in
/-- What a request does to the files: nothing, or one put or one read for a
session that is there. -/
inductive FilesStep (storage : Storage) :
    NodeCall → SharingFileManager → Prop
  | same {call} : FilesStep storage call storage.files
  | put {request session startPos files}
      (found : storage.sessions.findSession request.sessionId = some session)
      (ran : SharingFileManager.putFile permits session.filename
        request.fragmentContent startPos storage.files =
          ((putFragment permits request storage).1, files)) :
      FilesStep storage (.putFile request) files
  | got {request session startPos result files}
      (found : storage.sessions.findSession request.sessionId = some session)
      (ran : SharingFileManager.getFile permits session.filename
        maxFragmentContentLen.toNat startPos storage.files =
          (result, files)) :
      FilesStep storage (.getFile request) files

theorem filesStep_next {storage : Storage}
    (keyed : storage.sessions.Keyed) (call : NodeCall) :
    FilesStep permits storage call (storage.next permits call).files := by
  cases call with
  | putFileSession request =>
      rw [Storage.next, Action.after, (putSession_run keyed request).files]
      exact .same
  | getFileSession filePath =>
      rw [Storage.next, Action.after, (getSession_run keyed filePath).files]
      exact .same
  | putFile request =>
      rw [Storage.next, Action.after]
      rcases (putFragment_run permits storage request).files with
        same | ⟨session, startPos, found, ran⟩
      · rw [same]
        exact .same
      · exact .put found ran
  | getFile request =>
      rw [Storage.next, Action.after]
      rcases (getFragment_run permits storage request).files with
        same | ⟨session, startPos, found, ran⟩
      · rw [same]
        exact .same
      · exact .got found ran

/-- A request keeps the directory of the node. -/
theorem sharingPath_next {storage : Storage}
    (keyed : storage.sessions.Keyed) (call : NodeCall) :
    (storage.next permits call).files.sharingPath =
      storage.files.sharingPath := by
  have step := @filesStep_next permits storage keyed call
  generalize (storage.next permits call).files = files at step ⊢
  cases step with
  | same => rfl
  | put found ran => exact SharingFileManager.sharingPath_putFile ran
  | got found ran => exact SharingFileManager.sharingPath_getFile ran

/-- A request that puts nothing to a file changes nothing of what it
shows. -/
theorem shown_next {storage : Storage} {filename : Text} {call : NodeCall}
    (keyed : storage.sessions.Keyed)
    (other : ¬PutsTo permits storage filename call) :
    (storage.next permits call).files.shown
        (storage.files.getAbsolutePath filename) =
      storage.files.shown (storage.files.getAbsolutePath filename) := by
  have step := @filesStep_next permits storage keyed call
  generalize (storage.next permits call).files = files at step ⊢
  cases step with
  | same => rfl
  | @put request session startPos files found ran =>
      apply SharingFileManager.shown_putFile_other ran
      intro accepted same
      exact other ⟨accepted, session, found,
        SharingFileManager.getAbsolutePath_inj.mp same⟩
  | got found ran => exact SharingFileManager.shown_getFile ran _

/-- No request removes a file. -/
theorem fileExists_next {storage : Storage}
    (keyed : storage.sessions.Keyed) {path : Text}
    (exist : storage.files.fileExists path = true) (call : NodeCall) :
    (storage.next permits call).files.fileExists path = true := by
  have step := @filesStep_next permits storage keyed call
  generalize (storage.next permits call).files = files at step ⊢
  cases step with
  | same => exact exist
  | put found ran => exact SharingFileManager.fileExists_putFile ran exist
  | got found ran => exact SharingFileManager.fileExists_getFile ran exist

/-! ## Between two fragments -/

theorem Meanwhile.names {filename : Text} {first storage : Storage}
    (meanwhile : Meanwhile permits filename first storage)
    {session : FileSession} (names : first.Names session) :
    storage.Names session := by
  induction meanwhile with
  | refl => exact names
  | next before call other inductionHypothesis =>
      exact inductionHypothesis.next call

theorem Meanwhile.onePerFile {filename : Text} {first storage : Storage}
    (meanwhile : Meanwhile permits filename first storage)
    {session : FileSession} (names : first.Names session)
    (once : first.sessions.OnePerFile) : storage.sessions.OnePerFile := by
  induction meanwhile with
  | refl => exact once
  | next before call other inductionHypothesis =>
      exact SharedNode.onePerFile_next (before.names names).keyed
        inductionHypothesis call

theorem Meanwhile.sharingPath {filename : Text} {first storage : Storage}
    (meanwhile : Meanwhile permits filename first storage)
    {session : FileSession} (names : first.Names session) :
    storage.files.sharingPath = first.files.sharingPath := by
  induction meanwhile with
  | refl => rfl
  | next before call other inductionHypothesis =>
      exact (sharingPath_next (before.names names).keyed call).trans
        inductionHypothesis

theorem Meanwhile.shown {filename : Text} {first storage : Storage}
    (meanwhile : Meanwhile permits filename first storage)
    {session : FileSession} (names : first.Names session) :
    storage.files.shown (first.files.getAbsolutePath filename) =
      first.files.shown (first.files.getAbsolutePath filename) := by
  induction meanwhile with
  | refl => rfl
  | next before call other inductionHypothesis =>
      rw [← inductionHypothesis,
        ← SharingFileManager.getAbsolutePath_congr
          (before.sharingPath names)]
      exact shown_next (before.names names).keyed other

theorem Meanwhile.fileExists {filename path : Text} {first storage : Storage}
    (meanwhile : Meanwhile permits filename first storage)
    {session : FileSession} (names : first.Names session)
    (exist : first.files.fileExists path = true) :
    storage.files.fileExists path = true := by
  induction meanwhile with
  | refl => exact exist
  | next before call other inductionHypothesis =>
      exact fileExists_next (before.names names).keyed inductionHypothesis
        call

/-! ## The upload -/

/-- The state after an accepted fragment is that after the request. -/
theorem after_of_accepted {storage later : Storage} {request : ReqPutFile}
    (put : putFragment permits request storage = (.ok (), later)) :
    later = storage.next permits (.putFile request) :=
  (congrArg Prod.snd put).symm

/-- An accepted fragment is written at its own position. -/
theorem shown_of_accepted {storage later : Storage} {session : FileSession}
    (names : storage.Names session) {fragmentIndex : Nat}
    {fragment : List UInt8}
    (put : putFragment permits
      { sessionId := session.sessionId, fragmentIndex := fragmentIndex
        fragmentContent := fragment } storage = (.ok (), later)) :
    later.files.shown (storage.files.getAbsolutePath session.filename) =
        Content.writeAt 0
          (storage.files.shown
            (storage.files.getAbsolutePath session.filename))
          (fragmentIndex * maxFragmentContentLen.toNat) fragment ∧
      later.files.contentOf (storage.files.getAbsolutePath session.filename) =
        later.files.shown
          (storage.files.getAbsolutePath session.filename) ∧
      later.files.fileExists
        (storage.files.getAbsolutePath session.filename) = true := by
  have run := putFragment_run permits storage
    { sessionId := session.sessionId, fragmentIndex := fragmentIndex
      fragmentContent := fragment }
  rw [put] at run
  cases run with
  | @done found startPos _ files registered inside position ran =>
      obtain rfl := names.unique found registered
      rcases startPosOf_cases fragmentIndex with same | same <;>
        rw [same] at position <;> cases position
      refine ⟨?_, SharingFileManager.contentOf_putFile ran,
        SharingFileManager.fileExists_of_putFile ran⟩
      rw [finished, SharingFileManager.shown_putFile ran (by
        simp only [maxFragmentContentLen]
        omega), if_pos rfl]
      congr 1

theorem Accepted.names {session : FileSession} {first later : Storage}
    {fragments : List (List UInt8)}
    (accepted : Accepted permits session first fragments later)
    (names : first.Names session) : later.Names session := by
  induction accepted with
  | none => exact names
  | next before meanwhile fragment put inductionHypothesis =>
      rw [after_of_accepted put]
      exact (meanwhile.names inductionHypothesis).next _

theorem Accepted.onePerFile {session : FileSession} {first later : Storage}
    {fragments : List (List UInt8)}
    (accepted : Accepted permits session first fragments later)
    (names : first.Names session) (once : first.sessions.OnePerFile) :
    later.sessions.OnePerFile := by
  induction accepted with
  | none => exact once
  | next before meanwhile fragment put inductionHypothesis =>
      have namesBefore := before.names names
      rw [after_of_accepted put]
      exact SharedNode.onePerFile_next (meanwhile.names namesBefore).keyed
        (meanwhile.onePerFile namesBefore inductionHypothesis) _

theorem Accepted.sharingPath {session : FileSession} {first later : Storage}
    {fragments : List (List UInt8)}
    (accepted : Accepted permits session first fragments later)
    (names : first.Names session) :
    later.files.sharingPath = first.files.sharingPath := by
  induction accepted with
  | none => rfl
  | next before meanwhile fragment put inductionHypothesis =>
      have namesBefore := before.names names
      rw [after_of_accepted put,
        sharingPath_next (meanwhile.names namesBefore).keyed,
        meanwhile.sharingPath namesBefore, inductionHypothesis]

/-- Full fragments one after another are written over what was shown
before. -/
theorem Accepted.shown {session : FileSession} {first later : Storage}
    {fragments : List (List UInt8)}
    (accepted : Accepted permits session first fragments later)
    (names : first.Names session)
    (full : Content.FullBeforeLast maxFragmentContentLen.toNat fragments) :
    later.files.shown (first.files.getAbsolutePath session.filename) =
      fragments.flatten ++
        (first.files.shown
          (first.files.getAbsolutePath session.filename)).drop
            fragments.flatten.length := by
  induction accepted with
  | none => simp
  | @next storage middle later fragments before meanwhile fragment put
      inductionHypothesis =>
      have namesBefore := before.names names
      have samePath := before.sharingPath names
      have sameMiddle := meanwhile.sharingPath namesBefore
      have allFull : ∀ other ∈ fragments,
          other.length = maxFragmentContentLen.toNat := by
        simpa [Content.FullBeforeLast] using full
      have shownBefore := inductionHypothesis fun other present =>
        allFull other (List.dropLast_subset _ present)
      have written :=
        (shown_of_accepted (meanwhile.names namesBefore) put).1
      rw [SharingFileManager.getAbsolutePath_congr
        (sameMiddle.trans samePath)] at written
      have shownMiddle := meanwhile.shown namesBefore
      rw [SharingFileManager.getAbsolutePath_congr samePath] at shownMiddle
      rw [written, shownMiddle, shownBefore,
        ← Content.length_flatten_of_full allFull, Content.writeAt_append,
        List.flatten_append, List.flatten_singleton, List.length_append,
        List.drop_drop]

theorem Accepted.eq_of_nil {session : FileSession} {first later : Storage}
    {fragments : List (List UInt8)}
    (accepted : Accepted permits session first fragments later)
    (nothing : fragments = []) : later = first := by
  cases accepted with
  | none => rfl
  | next before meanwhile fragment put => simp at nothing

/-- Once a fragment was put, the stored content is what is shown. -/
theorem Accepted.stored {session : FileSession} {first later : Storage}
    {fragments : List (List UInt8)}
    (accepted : Accepted permits session first fragments later)
    (names : first.Names session) (some_ : fragments ≠ []) :
    later.files.contentOf (first.files.getAbsolutePath session.filename) =
        later.files.shown
          (first.files.getAbsolutePath session.filename) ∧
      later.files.fileExists
        (first.files.getAbsolutePath session.filename) = true := by
  cases accepted with
  | none => exact absurd rfl some_
  | next before meanwhile fragment put =>
      have namesBefore := before.names names
      have stored := (shown_of_accepted (meanwhile.names namesBefore) put).2
      rw [SharingFileManager.getAbsolutePath_congr
        ((meanwhile.sharingPath namesBefore).trans
          (before.sharingPath names))] at stored
      exact stored

/-- The sessions of a running node are under their ids, one for a file. -/
theorem sessions_of_reachable {sharingPath : Text}
    {files : Table Text (List UInt8)} {storage : Storage}
    (reachable : (nodeMachine permits sharingPath files).Reachable storage) :
    storage.sessions.Keyed ∧ storage.sessions.OnePerFile := by
  obtain ⟨calls, reaches⟩ := reachable
  refine Machine.Reaches.induction
    (motive := fun _ storage =>
      storage.sessions.Keyed ∧ storage.sessions.OnePerFile)
    ⟨FileSessionManager.keyed_init, FileSessionManager.onePerFile_init⟩
    ?_ reaches
  intro calls state call next _ ⟨keyed, once⟩ stepped
  cases stepped
  exact ⟨SharedNode.keyed_next keyed call,
    SharedNode.onePerFile_next keyed once call⟩

/-- A registered session of a running node. -/
theorem names_of_reachable {sharingPath : Text}
    {files : Table Text (List UInt8)} {storage : Storage}
    (reachable : (nodeMachine permits sharingPath files).Reachable storage)
    {session : FileSession}
    (registered : storage.sessions.findSession session.sessionId =
      some session) : storage.Names session := by
  have keyed := (sessions_of_reachable reachable).1
  refine ⟨keyed, (keyed _ _ registered).1, ?_⟩
  intro other found
  exact Option.some.inj (found.symm.trans registered)

/-- After a session has accepted all its fragments in order, its file holds
exactly these fragments if and only if what they were written over was not
longer. -/
theorem contentOf_eq_flatten_iff {sharingPath : Text}
    {files : Table Text (List UInt8)} {first later : Storage}
    (reachable : (nodeMachine permits sharingPath files).Reachable first)
    {session : FileSession}
    (registered : first.sessions.findSession session.sessionId = some session)
    {fragments : List (List UInt8)}
    (full : Content.FullBeforeLast maxFragmentContentLen.toNat fragments)
    (accepted : Accepted permits session first fragments later) :
    later.files.contentOf (first.files.getAbsolutePath session.filename) =
        fragments.flatten ↔
      (first.oldContent session.filename fragments).length ≤
        fragments.flatten.length := by
  have names := names_of_reachable reachable registered
  by_cases nothing : fragments = []
  · obtain rfl := accepted.eq_of_nil nothing
    simp [oldContent, nothing]
  · rw [(accepted.stored names nothing).1, accepted.shown names full,
      oldContent, if_neg nothing, List.append_right_eq_self,
      List.drop_eq_nil_iff]

/-- A node that has stored an upload of two bytes and is asked for a session
of the same name again. -/
def reopenedCalls : List NodeCall :=
  [.putFileSession { filePath := ['f'], maxFragment := 1 },
    .putFile { sessionId := 1, fragmentIndex := 0, fragmentContent := [1, 2] },
    .putFileSession { filePath := ['f'], maxFragment := 1 }]

def reopenedStorage : Storage :=
  reopenedCalls.foldl (·.next (fun _ _ => true) ·) (init ['d'] ∅)

theorem reopenedStorage_reachable :
    (nodeMachine (fun _ _ => true) ['d'] ∅).Reachable reopenedStorage :=
  ⟨reopenedCalls, rfl⟩

def reopenedSession : FileSession where
  sessionId := 2
  filename := ['f']
  maxFragment := 1

theorem reopenedSession_registered :
    reopenedStorage.sessions.findSession reopenedSession.sessionId =
      some reopenedSession := by
  decide +kernel

/-- The upload of one byte that follows. -/
theorem reopenedStorage_accepted :
    Accepted (fun _ _ => true) reopenedSession reopenedStorage [[3]]
      (reopenedStorage.next (fun _ _ => true)
        (.putFile { sessionId := 2, fragmentIndex := 0
                    fragmentContent := [3] })) := by
  refine .next (.none reopenedStorage) (.refl _) [3] ?_
  refine Prod.ext ?_ rfl
  decide +kernel

theorem contentOf_ne_flatten_reopened :
    (reopenedStorage.next (fun _ _ => true)
        (.putFile { sessionId := 2, fragmentIndex := 0
                    fragmentContent := [3] })).files.contentOf
      (reopenedStorage.files.getAbsolutePath ['f']) ≠ [[3]].flatten := by
  have iff_ := contentOf_eq_flatten_iff reopenedStorage_reachable
    reopenedSession_registered (by decide) reopenedStorage_accepted
  exact mt iff_.mp (by decide +kernel)

/-- The second byte of the longer upload stays in the file. -/
theorem not_contentOf_eq_flatten_always :
    ¬∀ first later session fragments,
      (nodeMachine (fun _ _ => true) ['d'] ∅).Reachable first →
      first.sessions.findSession session.sessionId = some session →
      (∀ fragment ∈ fragments,
        fragment.length ≤ maxFragmentContentLen.toNat) →
      Content.FullBeforeLast maxFragmentContentLen.toNat fragments →
      Accepted (fun _ _ => true) session first fragments later →
      later.files.contentOf (first.files.getAbsolutePath session.filename) =
        fragments.flatten := by
  intro always
  have same := always _ _ _ _ reopenedStorage_reachable
    reopenedSession_registered (by decide) (by decide)
    reopenedStorage_accepted
  revert same
  decide +kernel

end Storage

end StorageNode
end Spaceless
