import CodexKeyboard.SoundSync.ClosedRoutes

/-! Where the frame of an admission is.

    An admission waits in the mailbox, in the core's ingress or as the pending action; then it is held by
    a queued reply or by the supervisor, which is about to give it back. Every step of the core moves it
    or leaves it where it is, but for a close, which forgets what the core has of its route. -/

namespace CodexKeyboard.SoundSync

abbrev Lease := SpeakerAssetsLogicalRequestLease

def SpeakerAssetsRuntimeMailboxRecord.lease (record : SpeakerAssetsRuntimeMailboxRecord) : Lease :=
  ⟨record.route, record.admissionId⟩

def IngressRecord.lease (record : IngressRecord) : Lease := ⟨record.route, record.admissionId⟩

theorem leaseOf_eq (lease : Lease) (h : lease.admissionId ≠ 0) :
    leaseOf lease.route lease.admissionId = some lease := by
  simp [leaseOf, h]

theorem eq_of_leaseOf {route : SpeakerAssetsRouteToken} {admissionId : UInt64} {lease : Lease}
    (h : leaseOf route admissionId = some lease) : ⟨route, admissionId⟩ = lease := by
  unfold leaseOf at h
  split_ifs at h
  exact Option.some.inj h

namespace CoreView

variable {v v' : CoreView} {l : Lease} {result : SpeakerAssetsRuntimeStepResult}
  {release : Option Lease}

/-- The admissions the core still has to answer. -/
def waiting (v : CoreView) : List Lease :=
  v.ingress.map IngressRecord.lease ++ (v.pendingAction.map (·.2)).toList

/-- The admissions that have a reply. -/
def answered (v : CoreView) : List Lease := v.replies.map (·.lease)

/-- A reply is for the route of its admission, can be sent, and has a number. -/
structure RepliesOk (v : CoreView) : Prop where
  own : ∀ reply ∈ v.replies, reply.lease.route = reply.route
  sendable : ∀ reply ∈ v.replies, Sendable reply.frame
  numbered : ∀ reply ∈ v.replies, reply.sequence ≠ 0
  next : v.nextReplySequence ≠ 0

theorem RepliesOk.of_subset {replies : List SpeakerAssetsRuntimeReply} (h : v.RepliesOk)
    (hsub : ∀ reply ∈ replies, reply ∈ v.replies) (hreplies : v'.replies = replies)
    (hnext : v'.nextReplySequence = v.nextReplySequence) : v'.RepliesOk := by
  subst hreplies
  exact ⟨fun reply hr => h.own reply (hsub reply hr), fun reply hr => h.sendable reply (hsub reply hr),
    fun reply hr => h.numbered reply (hsub reply hr), hnext ▸ h.next⟩

theorem RepliesOk.push (h : v.RepliesOk) (route : SpeakerAssetsRouteToken) {frame : SpeakerAssetsFrame}
    (hsend : Sendable frame) (admissionId : UInt64) : (v.push route frame admissionId).RepliesOk := by
  refine ⟨fun reply hreply => ?_, fun reply hreply => ?_, fun reply hreply => ?_, ?_⟩
  · rcases List.mem_append.1 hreply with hreply | hreply
    · exact h.own reply hreply
    · obtain rfl := List.mem_singleton.1 hreply
      rfl
  · rcases List.mem_append.1 hreply with hreply | hreply
    · exact h.sendable reply hreply
    · obtain rfl := List.mem_singleton.1 hreply
      exact hsend
  · rcases List.mem_append.1 hreply with hreply | hreply
    · exact h.numbered reply hreply
    · obtain rfl := List.mem_singleton.1 hreply
      exact h.next
  · show (if v.nextReplySequence + 1 = 0 then 1 else v.nextReplySequence + 1) ≠ 0
    split_ifs with hwrap
    · decide
    · exact hwrap

theorem RepliesOk.step (h : v.RepliesOk) (hstep : v.Step (result, release, v')) : v'.RepliesOk := by
  have hsame : ∀ {u : CoreView}, u.replies = v.replies → u.nextReplySequence = v.nextReplySequence →
      u.RepliesOk := fun hr hn => h.of_subset (fun _ h => h) hr hn
  cases hstep with
  | closed _ _ _ _ => exact h.of_subset (fun _ h => List.mem_of_mem_filter h) rfl rfl
  | @frame record ingress _ _ _ _ _ _ hframe =>
    cases hframe with
    | dropped _ => exact hsame rfl rfl
    | replied _ hsend => exact (hsame (u := { v with ingress := ingress }) rfl rfl).push _ hsend _
    | pended _ _ _ _ _ _ => exact hsame rfl rfl
  | @answered _ _ _ _ bound _ _ _ _ _ _ _ _ hsend =>
    exact (hsame (u := { v with pendingAction := none, pending := none, boundRoute := bound })
      rfl rfl).push _ hsend _
  | _ => exact hsame rfl rfl

/-- How the admissions of the core move in one step: those that wait, those that have a reply, and the
    one given back. Only a close of its route forgets one. -/
inductive Moved (closes : SpeakerAssetsRouteToken → Prop) (waiting answered : List Lease) :
    List Lease → List Lease → Option Lease → Prop
  | same {waiting'} : waiting'.Perm waiting → Moved closes waiting answered waiting' answered none
  | closed {route : SpeakerAssetsRouteToken} {waiting' answered'} : closes route → waiting' ⊆ waiting →
    answered' ⊆ answered → (∀ l : Lease, l.route ≠ route → waiting'.count l = waiting.count l ∧
      answered'.count l = answered.count l) → Moved closes waiting answered waiting' answered' none
  | released {x : Lease} {rest : List Lease} : waiting.Perm (x :: rest) →
    Moved closes waiting answered (rest.filter fun y => x.admissionId = 0 ∨ y.admissionId ≠ x.admissionId)
      answered (leaseOf x.route x.admissionId)
  | replied {x : Lease} {rest : List Lease} : waiting.Perm (x :: rest) →
    Moved closes waiting answered rest (answered ++ [x]) none

section moved

variable {closes : SpeakerAssetsRouteToken → Prop} {waiting answered waiting' answered' : List Lease}

/-- No admission comes in. -/
theorem Moved.known (h : Moved closes waiting answered waiting' answered' release) {x : Lease}
    (hx : x ∈ waiting' ∨ x ∈ answered' ∨ release = some x) : x ∈ waiting ∨ x ∈ answered := by
  cases h with
  | same hperm => exact (hx.imp_right (Or.resolve_right · nofun)).imp_left hperm.mem_iff.1
  | closed _ hw ha _ =>
    rcases hx with hx | hx | hx
    · exact Or.inl (hw hx)
    · exact Or.inr (ha hx)
    · cases hx
  | released hperm =>
    rcases hx with hx | hx | hx
    · exact Or.inl (hperm.mem_iff.2 (List.mem_cons_of_mem _ (List.mem_of_mem_filter hx)))
    · exact Or.inr hx
    · exact Or.inl (hperm.mem_iff.2 (eq_of_leaseOf hx ▸ List.mem_cons_self ..))
  | replied hperm =>
    rcases hx with hx | hx | hx
    · exact Or.inl (hperm.mem_iff.2 (List.mem_cons_of_mem _ hx))
    · rcases List.mem_append.1 hx with hx | hx
      · exact Or.inr hx
      · exact Or.inl (hperm.mem_iff.2 (List.mem_singleton.1 hx ▸ List.mem_cons_self ..))
    · cases hx

theorem Moved.subset (h : Moved closes waiting answered waiting' answered' release) :
    waiting' ⊆ waiting := by
  cases h with
  | same hperm => exact hperm.subset
  | closed _ hw _ _ => exact hw
  | released hperm =>
    exact fun x hx => hperm.mem_iff.2 (List.mem_cons_of_mem _ (List.mem_of_mem_filter hx))
  | replied hperm => exact fun x hx => hperm.mem_iff.2 (List.mem_cons_of_mem _ hx)

/-- An admission that is in one place is in one place after the step, and does not go back to waiting. -/
theorem Moved.count (h : Moved closes waiting answered waiting' answered' release) (hid : l.admissionId ≠ 0)
    (hunique : ∀ x ∈ waiting, x.admissionId = l.admissionId → x = l)
    (hone : waiting.count l + answered.count l ≤ 1) :
    (closes l.route ∧ waiting' ⊆ waiting ∧ answered' ⊆ answered ∧ release = none) ∨
      (waiting'.count l + answered'.count l + release.toList.count l =
          waiting.count l + answered.count l ∧ waiting'.count l ≤ waiting.count l) := by
  cases h with
  | same hperm => exact Or.inr ⟨by simp [hperm.count_eq], (hperm.count_eq l).le⟩
  | @closed route _ _ hcloses hw ha hcount =>
    by_cases hroute : l.route = route
    · exact Or.inl ⟨hroute ▸ hcloses, hw, ha, rfl⟩
    · obtain ⟨h₁, h₂⟩ := hcount l hroute
      exact Or.inr ⟨by simp [h₁, h₂], h₁.le⟩
  | @released x rest hperm =>
    right
    by_cases hx : x = l
    · subst hx
      have hcount : waiting.count x = rest.count x + 1 := by simp [hperm.count_eq]
      have hrest : rest.count x = 0 := by omega
      have hfilter : (rest.filter fun y => x.admissionId = 0 ∨ y.admissionId ≠ x.admissionId).count x =
          0 := List.count_eq_zero.2 fun hmem =>
        List.count_eq_zero.1 hrest (List.mem_of_mem_filter hmem)
      have hsome : (some x).toList.count x = 1 := by simp
      rw [leaseOf_eq x hid]
      exact ⟨by omega, by omega⟩
    · have hrelease : (leaseOf x.route x.admissionId).toList.count l = 0 := by
        refine List.count_eq_zero.2 fun hmem => hx ?_
        rw [Option.mem_toList] at hmem
        exact eq_of_leaseOf hmem
      have hid' : x.admissionId ≠ l.admissionId := fun heq =>
        hx (hunique x (hperm.mem_iff.2 (List.mem_cons_self ..)) heq)
      have hcount : waiting.count l = rest.count l := by simp [hperm.count_eq, hx]
      have hfilter : (rest.filter fun y => x.admissionId = 0 ∨ y.admissionId ≠ x.admissionId).count l =
          rest.count l := List.count_filter (by simp [Ne.symm hid'])
      exact ⟨by omega, by omega⟩
  | @replied x _ hperm =>
    have hcount : waiting.count l = waiting'.count l + if x = l then 1 else 0 := by
      simp [hperm.count_eq, List.count_cons]
    right
    simp only [List.count_append, List.count_singleton, beq_iff_eq, Option.toList_none, List.count_nil]
    exact ⟨by omega, by omega⟩

end moved

theorem map_lease_filter (ingress : List IngressRecord) (p : Lease → Bool) :
    (ingress.filter fun record => p record.lease).map IngressRecord.lease =
      (ingress.map IngressRecord.lease).filter p := by
  rw [List.filter_map]
  rfl

theorem waiting_retire (hp : v.pendingAction = none) (admissionId : UInt64) :
    (v.retire admissionId).waiting = (v.ingress.map IngressRecord.lease).filter
      fun y => admissionId = 0 ∨ y.admissionId ≠ admissionId := by
  have hingress : (v.retire admissionId).ingress =
      v.ingress.filter fun record => admissionId = 0 ∨ record.lease.admissionId ≠ admissionId := by
    unfold retire
    split_ifs with hid
    · simp [hid]
    · simp [hid, IngressRecord.lease]
  have hpending : (v.retire admissionId).pendingAction = none := hp
  rw [waiting, hingress, hpending, ← map_lease_filter]
  exact List.append_nil _

/-- One step of the core moves its admissions. -/
theorem Step.moved (hlinked : v.Linked) (hreplies : v.RepliesOk) (hstep : v.Step (result, release, v')) :
    Moved (fun route => v.lifecycle.head? = some ⟨.closed, route⟩) v.waiting v.answered v'.waiting
      v'.answered release := by
  have hhead : ∀ {record : IngressRecord} {ingress}, v.ingress = record :: ingress →
      v.pendingAction = none →
        v.waiting.Perm (record.lease :: ingress.map IngressRecord.lease) := by
    intro record ingress hi hp
    exact .of_eq (by simp [waiting, hi, hp])
  have hpending : ∀ {action lease}, v.pendingAction = some (action, lease) →
      v.waiting.Perm (lease :: v.ingress.map IngressRecord.lease) := by
    intro action lease ha
    simp only [waiting, ha, Option.map_some, Option.toList_some]
    exact List.perm_append_singleton ..
  cases hstep with
  | @closed route _ _ _ hl _ _ _ =>
    have hingress : (v.ingress.filter (·.route ≠ route)).map IngressRecord.lease =
        (v.ingress.map IngressRecord.lease).filter (·.route ≠ route) :=
      map_lease_filter v.ingress fun l => l.route ≠ route
    have hanswered : (v.replies.filter (·.route ≠ route)).map (·.lease) =
        (v.replies.map (·.lease)).filter (·.route ≠ route) := by
      rw [List.filter_map]
      congr 1
      refine List.filter_congr fun reply hreply => ?_
      simp [hreplies.own reply hreply]
    refine .closed (by rw [hl]; rfl : v.lifecycle.head? = some ⟨.closed, route⟩) ?_ ?_ fun l hl => ⟨?_, ?_⟩
    · refine List.append_subset.2 ⟨?_, List.subset_append_right ..⟩
      exact List.Subset.trans (List.filter_sublist.map _).subset (List.subset_append_left ..)
    · exact (List.filter_sublist.map _).subset
    · show List.count l ((v.ingress.filter (·.route ≠ route)).map IngressRecord.lease ++ _) = _
      rw [hingress, waiting, List.count_append, List.count_append, List.count_filter (by simpa using hl)]
      rfl
    · show List.count l ((v.replies.filter (·.route ≠ route)).map (·.lease)) = _
      rw [hanswered, CoreView.answered, List.count_filter (by simpa using hl)]
  | @stale record ingress _ _ hp hi _ _ _ =>
    rw [waiting_retire (v := { v with ingress := ingress }) hp]
    exact .released (hhead hi hp)
  | @frame record ingress _ _ hp hi _ _ hframe =>
    cases hframe with
    | dropped _ =>
      rw [waiting_retire (v := { v with ingress := ingress }) hp]
      exact .released (hhead hi hp)
    | replied _ _ =>
      have hmoved : Moved (fun route => v.lifecycle.head? = some ⟨.closed, route⟩) v.waiting v.answered _ _
          none := .replied (hhead hi hp)
      simpa [waiting, CoreView.answered, push, hp, IngressRecord.lease] using hmoved
    | pended _ _ _ _ _ _ =>
      refine .same (.trans ?_ (hhead hi hp).symm)
      exact List.perm_append_singleton ..
  | @answered action lease p frame bound _ _ ha hp _ _ _ _ _ =>
    have hlease : (⟨action.route, lease.admissionId⟩ : Lease) = lease := by
      simp only [Linked, ha, hp] at hlinked
      rw [← hlinked.2.1]
    have hmoved : Moved (fun route => v.lifecycle.head? = some ⟨.closed, route⟩) v.waiting v.answered _ _
        none := .replied (hpending ha)
    simpa [waiting, CoreView.answered, push, hlease] using hmoved
  | @abandoned action lease p _ _ ha _ _ _ =>
    rw [waiting_retire rfl]
    exact .released (hpending ha)
  | _ => exact .same (.refl _)

/-- A reply stays, but for a close of its route. -/
theorem Step.reply_kept (hstep : v.Step (result, release, v')) {reply : SpeakerAssetsRuntimeReply}
    (hreply : reply ∈ v.replies) (hopen : v.lifecycle.head? ≠ some ⟨.closed, reply.route⟩) :
    reply ∈ v'.replies := by
  cases hstep with
  | @closed route _ _ _ hl _ _ _ =>
    refine List.mem_filter.2 ⟨hreply, decide_eq_true fun heq => hopen ?_⟩
    rw [hl, heq]
    rfl
  | frame _ _ _ _ _ hframe =>
    cases hframe with
    | dropped _ => exact hreply
    | replied _ _ => exact List.mem_append_left _ hreply
    | pended _ _ _ _ _ _ => exact hreply
  | answered _ _ _ _ _ _ _ _ => exact List.mem_append_left _ hreply
  | _ => exact hreply

end CoreView

end CodexKeyboard.SoundSync
