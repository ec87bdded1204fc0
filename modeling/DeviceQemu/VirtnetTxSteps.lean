import DeviceQemu.VirtnetTxOwnership

/-! Every step keeps the descriptor partition. -/
namespace VirtnetTxSteps

open StepSystem RingWindow LinkedWalk Virtmmio VirtnetTx VirtnetTxOwnership

variable {β ρ : Type} {d : Driver β ρ} {qsz : UInt16}

theorem held_nodup {s : State β ρ} {g : Owners β} (h : Inv d qsz s g) : g.held.Nodup :=
  (List.nodup_append.mp (List.nodup_append.mp h.nodup).1).2.1

/-- Clearing NEXT on the tail closes the chain. -/
theorem clear_tail {desc : UInt16 → VirtqDesc} {p : β} {head tail : UInt16}
    {held : List UInt16} (h : Drawn d desc p head tail held) (hn : held.Nodup) :
    let desc' := Function.update desc tail (desc tail).clearNext
    Cut d desc' p head held ∧ Sealed (more desc') (link desc') head held := by
  intro desc'
  obtain ⟨⟨⟨y, hp⟩, hi, hl⟩, ht⟩ := h
  obtain ⟨as, rfl⟩ := List.getLast?_eq_some_iff.mp ht
  have hlink : ∀ a, link desc' a = link desc a := by
    intro a
    by_cases ha : a = tail
    · subst ha; simp [desc', link]
    · simp [desc', link, ha]
  have hpath : Path (link desc') head (as ++ [tail]) y := hp.frame fun a _ => hlink a
  have hinner : ∀ a ∈ (as ++ [tail]).dropLast, more desc' a = true := by
    intro a ha
    have hat : a ≠ tail := by
      rw [List.dropLast_concat] at ha
      rintro rfl
      simp only [List.nodup_append, List.mem_singleton, forall_eq] at hn
      exact hn.2.2 a ha rfl
    have hsame : more desc' a = more desc a := by simp [more, desc', hat]
    rw [hsame]
    exact hi a ha
  refine ⟨⟨⟨y, hpath⟩, hinner, hl⟩, ⟨by simp, ⟨y, hpath⟩, hinner, ?_⟩⟩
  simp [more, desc']

/-- Writing the header and the segments fills the whole held chain and keeps it sealed. -/
theorem fill_chain {desc : UInt16 → VirtqDesc} {p : β} {head : UInt16} {held : List UInt16}
    (hc : Cut d desc p head held) (hs : Sealed (more desc) (link desc) head held)
    (hn : held.Nodup) :
    let desc₁ := Function.update desc head { desc head with pAddr := d.vnHdr, len := virtnetHdrSize }
    let r := fillSegments desc₁ head (d.segments p)
    (∀ a, a ∉ held → r.1 a = desc a) ∧ Drawn d r.1 p head r.2 held ∧
      Sealed (more r.1) (link r.1) head held ∧
      held.map (span r.1) = (d.vnHdr, virtnetHdrSize) :: d.segments p ∧
      (desc₁ head).next = link r.1 head := by
  intro desc₁ r
  obtain ⟨as, has⟩ := hc.split
  have hlen : (link desc head :: as).length = (d.segments p).length := by
    have := hc.length
    rw [has] at this
    simpa using this
  have hnext₁ : ∀ a, (desc₁ a).next = (desc a).next := by
    intro a
    by_cases ha : a = head
    · subst ha; simp [desc₁]
    · simp [desc₁, ha]
  have hflag₁ : ∀ a, (desc₁ a).flag = (desc a).flag := by
    intro a
    by_cases ha : a = head
    · subst ha; simp [desc₁]
    · simp [desc₁, ha]
  obtain ⟨y, hp⟩ := hc.path
  rw [has] at hp hn
  have hp₁ : Path (link desc₁) head (head :: link desc head :: as) y :=
    hp.frame fun a _ => hnext₁ a
  obtain ⟨hhead, hn'⟩ := List.nodup_cons.mp hn
  obtain ⟨hf, ht⟩ := fillSegments_filled hp₁ hn' hlen
  have hnext : ∀ a, link r.1 a = link desc a := fun a => (hf.next a).trans (hnext₁ a)
  have hmore : ∀ a, more r.1 a = more desc a := by
    intro a
    simp only [more, VirtqDesc.hasNext]
    rw [hf.flag a, hflag₁ a]
  have hsealed : Sealed (more r.1) (link r.1) head held :=
    hs.frame (fun a _ => hmore a) fun a _ => hnext a
  refine ⟨?_, ⟨⟨hsealed.path, hsealed.inner, hc.length⟩, ?_⟩, hsealed, ?_, ?_⟩
  · intro a ha
    rw [has] at ha
    have hah : a ≠ head := by rintro rfl; exact ha (List.mem_cons_self ..)
    rw [hf.other a fun h => ha (List.mem_cons_of_mem _ h)]
    exact Function.update_of_ne hah _ _
  · rw [has]
    exact ht
  · rw [has, List.map_cons, hf.spans, span, hf.other head hhead]
    simp [desc₁]
  · rw [hnext₁, hnext]

theorem output_step {s t : State β ρ} {g : Owners β} {p : β} (hq : d.minRing ≤ qsz.toNat)
    (h : Inv d qsz s g) (ht : lowLevelOutput d s p = some t) : Inv d qsz t g := by
  unfold lowLevelOutput at ht
  split at ht
  next hpc =>
    split at ht
    next hacc =>
      obtain rfl := Option.some.inj ht
      have hheld : g.held = [] := by
        have hs := h.sender
        rwa [hpc] at hs
      have hfit : (d.entries p).toNat ≤ s.q.qsz.toNat :=
        d.accepts_le _ _ (by rw [h.size]; exact hq) hacc
      obtain ⟨h1, h2, h3, h4, h5, h6, h7, h8, h9, -, h11, h12, h13⟩ := h
      refine ⟨h1, h2, h3, h4, h5, h6, h7, h8, h9, ⟨hheld, hfit⟩, h11, h12, ?_⟩
      rw [hpc] at h13
      simpa [senderBuf] using h13.append_right [p]
    next =>
      obtain rfl := Option.some.inj ht
      exact h
  next => simp at ht

theorem ring_step {s : State β ρ} {g : Owners β} {p : β} {head : UInt16} (hp : PowTwo qsz)
    (h : Inv d qsz s g) (hpc : s.sender = .ring p head) :
    Inv d qsz { s.setAvail { s.q.avail with
      ring := Function.update s.q.avail.ring (slot s.q.qsz s.q.avail.index) head } with
      sender := .publish p head } g := by
  have hs := h.sender
  rw [hpc] at hs
  -- the sender holds a chain, so the published chains cannot fill the ring
  have hgap : (s.q.avail.index - s.dev.seen).toNat + 0 < s.q.qsz.toNat := by
    have hcount := h.count
    have hheld := two_le_length d hs.length
    rw [h.avail_gap, h.size]
    simp only [Owners.loans, List.length_append] at hcount
    dsimp only at hheld
    omega
  obtain ⟨h1, h2, h3, h4, h5, h6, h7, h8, h9, h10, h11, h12, h13⟩ := h
  refine ⟨h1, h2, h3, h4, h5, h6, ?_, h8, h9, ⟨hs, by simp [State.setAvail]⟩, ?_, h12, ?_⟩
  · rw [← h7]
    have hupd := @window_update _ _ (h1 ▸ hp) s.q.avail.ring _ _ _ hgap head
    simpa [Virtq.availFrom, State.setAvail] using hupd
  · exact h11.frame (fun c hc => h6 c (mem_loans_of_current hc)) (fun _ _ _ _ => rfl)
      (fun _ _ _ _ => rfl) rfl fun _ => id
  · rw [hpc] at h13
    exact h13

theorem publish_step {s : State β ρ} {g : Owners β} {p : β} {head : UInt16}
    (h : Inv d qsz s g) (hpc : s.sender = .publish p head) :
    Inv d qsz { s.setAvail { s.q.avail with index := s.q.avail.index + 1 } with
      sender := .notify } { g with held := [], avail := g.avail ++ [⟨head, g.held, p⟩] } := by
  have hs := h.sender
  rw [hpc] at hs
  obtain ⟨hloan, hring⟩ := hs
  have hgap : (s.q.avail.index - s.dev.seen).toNat < 65535 := by
    have hcount := h.count
    have hheld := two_le_length d hloan.length
    have := qsz.toNat_lt
    rw [h.avail_gap]
    simp only [Owners.loans, List.length_append] at hcount
    dsimp only at hheld
    omega
  obtain ⟨h1, h2, h3, h4, h5, h6, h7, h8, h9, -, h11, h12, h13⟩ := h
  constructor
  · exact h1
  · refine List.Perm.trans ?_ h2
    rw [List.perm_iff_count]
    intro a
    simp only [Owners.all, Owners.loans, List.count_append, List.flatMap_append,
      List.flatMap_cons, List.flatMap_nil, List.append_nil]
    omega
  · exact h3
  · exact h4
  · exact h5
  · intro c hc
    have hc : c ∈ g.loans ∨ c = ⟨head, g.held, p⟩ := by
      simpa [Owners.loans, or_assoc] using hc
    rcases hc with hc | rfl
    · exact h6 c hc
    · exact hloan
  · simp only [Virtq.availFrom, State.setAvail] at h7 ⊢
    rw [window_bump hgap, h7, hring]
    simp
  · exact h8
  · exact h9
  · rfl
  · exact h11.frame (fun c hc => h6 c (mem_loans_of_current hc)) (fun _ _ _ _ => rfl)
      (fun _ _ _ _ => rfl) rfl fun _ => id
  · exact h12
  · rw [hpc] at h13
    simpa [senderBuf, State.setAvail] using h13

theorem sender_step {s t : State β ρ} {g : Owners β} (hp : PowTwo qsz) (h : Inv d qsz s g)
    (ht : senderStep d s = some t) : ∃ g', Inv d qsz t g' := by
  have hs := h.sender
  cases hpc : s.sender with
  | idle => simp [senderStep, hpc] at ht
  | lock p =>
    rw [hpc] at hs
    simp only [senderStep, hpc] at ht
    obtain ⟨-, ht⟩ := Option.ite_none_left_eq_some.mp ht
    obtain rfl := Option.some.inj ht
    exact ⟨g, h.sender_moves true (.take p) hs (by rw [hpc]; rfl)⟩
  | take p =>
    rw [hpc] at hs
    simp only [senderStep, hpc] at ht
    split at ht
    · obtain rfl := Option.some.inj ht
      exact ⟨g, h.sender_moves false (.yield p) hs (by rw [hpc]; rfl)⟩
    next hle =>
      obtain rfl := Option.some.inj ht
      obtain ⟨xs, ys, -, h'⟩ := h.take hpc hle
      exact ⟨_, h'⟩
  | yield p =>
    rw [hpc] at hs
    simp only [senderStep, hpc] at ht
    obtain rfl := Option.some.inj ht
    exact ⟨g, h.sender_moves s.transLock (.lock p) hs (by rw [hpc]; rfl)⟩
  | unlock p head tail =>
    rw [hpc] at hs
    simp only [senderStep, hpc] at ht
    obtain rfl := Option.some.inj ht
    exact ⟨g, h.sender_moves false (.clearTail p head tail) hs (by rw [hpc]; rfl)⟩
  | clearTail p head tail =>
    rw [hpc] at hs
    simp only [senderStep, hpc] at ht
    obtain rfl := Option.some.inj ht
    have htail : tail ∈ g.held := List.mem_of_getLast? hs.tail
    refine ⟨g, h.sender_writes _ s.tbufRec s.transLock (.fill p head) ?_ (fun _ _ => rfl)
      (clear_tail hs (held_nodup h)) (by rw [hpc]; rfl)⟩
    intro a ha
    have hat : a ≠ tail := by rintro rfl; exact ha htail
    exact Function.update_of_ne hat _ _
  | fill p head =>
    rw [hpc] at hs
    simp only [senderStep, hpc] at ht
    obtain rfl := Option.some.inj ht
    obtain ⟨hother, hdrawn, hsealed, hspans, hidx⟩ := fill_chain hs.1 hs.2 (held_nodup h)
    exact ⟨g, h.sender_writes _ s.tbufRec s.transLock (.record p head _ _) hother
      (fun _ _ => rfl) ⟨hdrawn, hsealed, hspans, hidx⟩ (by rw [hpc]; rfl)⟩
  | record p head idx tail =>
    rw [hpc] at hs
    simp only [senderStep, hpc] at ht
    obtain rfl := Option.some.inj ht
    obtain ⟨hdrawn, hsealed, hspans, rfl⟩ := hs
    obtain ⟨as, has⟩ := hdrawn.cut.split
    have hsecond : link s.q.desc head ∈ g.held := by rw [has]; simp
    refine ⟨g, h.sender_writes s.q.desc _ s.transLock (.ring p head) (fun _ _ => rfl) ?_
      ⟨hsealed, hdrawn.cut.length, hspans, tail, hdrawn.tail, Function.update_self ..⟩
      (by rw [hpc]; rfl)⟩
    intro a ha
    have hai : a ≠ link s.q.desc head := by rintro rfl; exact ha hsecond
    exact Function.update_of_ne hai _ _
  | ring p head =>
    simp only [senderStep, hpc] at ht
    obtain rfl := Option.some.inj ht
    exact ⟨g, ring_step hp h hpc⟩
  | publish p head =>
    simp only [senderStep, hpc] at ht
    obtain rfl := Option.some.inj ht
    exact ⟨_, publish_step h hpc⟩
  | notify =>
    rw [hpc] at hs
    simp only [senderStep, hpc] at ht
    obtain rfl := Option.some.inj ht
    obtain ⟨h1, h2, h3, h4, h5, h6, h7, h8, h9, -, h11, h12, h13⟩ := h
    rw [hpc] at h13
    exact ⟨g, h1, h2, h3, h4, h5, h6, h7, h8, h9, hs, h11, h12, h13⟩

theorem read_step {s : State β ρ} {g : Owners β} (h : Inv d qsz s g) (hpc : s.handler = .read) :
    ∃ c rest, g.used = c :: rest ∧
      Inv d qsz
        { s with handler := .lookup (s.q.used.ring (slot s.q.qsz s.q.last)).id.toUInt16 }
        { g with current := [c], used := rest } := by
  have hh := h.handler
  rw [hpc] at hh
  obtain ⟨hcur, hne⟩ := hh
  obtain ⟨h1, h2, h3, h4, h5, h6, h7, h8, h9, h10, -, h12, h13⟩ := h
  simp only [hpc, taken, Virtq.usedFrom] at h9
  rw [window_pop hne] at h9
  cases hused : g.used with
  | nil => simp [hused] at h9
  | cons c rest =>
    rw [hused] at h9
    obtain ⟨hc, hrest⟩ := List.cons.inj h9
    refine ⟨c, rest, rfl, h1, ?_, h3, h4, h5, ?_, h7, h8, hrest, h10, ⟨c, rfl, hc.symm⟩, ?_, h13⟩
    · simpa [Owners.all, Owners.loans, hcur, hused] using h2
    · simpa [Owners.loans, hcur, hused] using h6
    · simpa [hpc, handlerBuf, hcur, hused] using h12

/-- Putting a chain in front of the free list, as FreeTxEntry links it. -/
theorem splice_links {desc : UInt16 → VirtqDesc} {p : β} {head t hdr y : UInt16}
    {nodes free : List UInt16} (hc : Cut d desc p head nodes) (ht : nodes.getLast? = some t)
    (hn : (nodes ++ free).Nodup) (hp : Path (link desc) hdr free y)
    (hm : ∀ a ∈ free.dropLast, more desc a = true) (hfree : free ≠ []) :
    let desc' := Function.update desc t { desc t with next := hdr, flag := virtqDescFNext }
    (∃ z, Path (link desc') head (nodes ++ free) z) ∧
      ∀ a ∈ (nodes ++ free).dropLast, more desc' a = true := by
  intro desc'
  obtain ⟨as, rfl⟩ := List.getLast?_eq_some_iff.mp ht
  obtain ⟨z, hz⟩ := hc.path
  obtain ⟨hnodes, -, hdisj⟩ := List.nodup_append.mp hn
  have hlink : link desc' = Function.update (link desc) t hdr := by
    funext a
    by_cases ha : a = t
    · subst ha; simp [desc', link]
    · simp [desc', link, ha]
  have hother : ∀ a, a ≠ t → desc' a = desc a := fun a ha => Function.update_of_ne ha _ _
  have hout : ∀ a ∈ free, a ≠ t := by
    rintro a ha rfl
    exact hdisj a (by simp) a ha rfl
  constructor
  · refine ⟨y, path_append.mpr ⟨hdr, ?_, hp.frame fun a ha => ?_⟩⟩
    · rw [hlink]
      exact hz.relink hnodes
    · rw [link, hother a (hout a ha)]
  · intro a ha
    rw [List.dropLast_append_of_ne_nil hfree] at ha
    by_cases hat : a = t
    · subst hat
      simp [more, desc', VirtqDesc.hasNext, virtqDescFNext]
    · rw [more, hother a hat]
      rcases List.mem_append.mp ha with ha | ha
      · apply hc.inner
        rw [List.dropLast_concat]
        simpa [hat] using ha
      · exact hm a ha

/-- tbufRec names the last descriptor of the chain it is found through. -/
theorem recTail_eq {s : State β ρ} {c : Loan β} {t : UInt16} (h : LoanOk d s.q.desc s.tbufRec c)
    (ht : c.nodes.getLast? = some t) :
    d.recTail (d.record c.buf (d.entries c.buf) t) (link s.q.desc c.head) = t := by
  apply d.recTail_record
  intro hone
  obtain ⟨as, has⟩ := h.cut.split
  have hlen := h.length
  rw [has, hone] at hlen
  obtain rfl : as = [] := by simpa using hlen
  rw [has] at ht
  simpa using ht.symm

theorem splice_step {s : State β ρ} {g : Owners β} {head idx : UInt16} {early : Option ρ}
    (h : Inv d qsz s g) (hpc : s.handler = .splice head idx early) :
    ∃ c, g.current = [c] ∧
      Inv d qsz (spliceEntry d s head idx (early.getD (s.tbufRec idx)))
        { g with free := c.nodes ++ g.free, current := [] } := by
  have hh := h.handler
  rw [hpc] at hh
  obtain ⟨c, hcur, rfl, rfl, hearly⟩ := hh
  have hc : c ∈ g.loans := by simp [Owners.loans, hcur]
  have hloan := h.loans c hc
  obtain ⟨t, ht, hrec⟩ := hloan.record
  have htc : t ∈ c.nodes := List.mem_of_getLast? ht
  -- the chain, the free list, the held chain and the other loans are pairwise disjoint
  have hparts : (c.nodes ++ g.free ++ g.held ++
      (g.used ++ g.inFlight ++ g.avail).flatMap Loan.nodes).Perm (indices qsz) := by
    refine List.Perm.trans ?_ h.parts
    rw [List.perm_iff_count]
    intro a
    simp only [Owners.all, Owners.loans, hcur, List.count_append, List.flatMap_append,
      List.flatMap_cons, List.flatMap_nil, List.append_nil]
    omega
  have hnodup := hparts.nodup_iff.mpr (nodup_indices qsz)
  have hrest : ∀ b ∈ g.used ++ g.inFlight ++ g.avail, ∀ a ∈ b.nodes, a ≠ t := by
    rintro b hb a ha rfl
    exact (List.nodup_append.mp hnodup).2.2 a (by simp [htc]) a
      (List.mem_flatMap.mpr ⟨b, hb, ha⟩) rfl
  have hheld : ∀ a ∈ g.held, a ≠ t := by
    rintro a ha rfl
    exact h.loan_held hc htc ha
  have hfreec : (c.nodes ++ g.free).Nodup := (List.nodup_append.mp (List.nodup_append.mp hnodup).1).1
  have hlen := hparts.length_eq
  obtain ⟨h1, h2, h3, ⟨y, h4⟩, h5, h6, h7, h8, h9, h10, -, h12, h13⟩ := h
  rw [hearly, hrec]
  simp only [spliceEntry, recTail_eq hloan ht, d.recBuf_record, d.recCount_record]
  generalize hdesc : (if s.tFreeNum > 0 then _ else s.q.desc) = desc
  have hother : ∀ a, a ≠ t → desc a = s.q.desc a := by
    intro a ha
    rw [← hdesc]
    split
    · exact Function.update_of_ne ha _ _
    · rfl
  have hlist : (∃ z, Path (link desc) c.head (c.nodes ++ g.free) z) ∧
      ∀ a ∈ (c.nodes ++ g.free).dropLast, more desc a = true := by
    by_cases hfree : g.free = []
    · have hzero : ¬ s.tFreeNum > 0 := by
        rw [gt_iff_lt, UInt16.lt_iff_toNat_lt, h3, hfree]
        simp
      rw [← hdesc, if_neg hzero, hfree, List.append_nil]
      exact ⟨hloan.closed.path, hloan.closed.inner⟩
    · have hpos : s.tFreeNum > 0 := by
        rw [gt_iff_lt, UInt16.lt_iff_toNat_lt, h3]
        simpa using List.length_pos_iff.mpr hfree
      rw [← hdesc, if_pos hpos]
      exact splice_links hloan.cut ht hfreec h4 h5 hfree
  refine ⟨c, hcur, h1, hparts, ?_, hlist.1, hlist.2, ?_, h7, h8, ?_, ?_, rfl, ?_, h13⟩
  · have hqsz := qsz.toNat_lt
    have hcount := hloan.length
    have hentries := d.entries_eq c.buf
    simp only [List.length_append, length_indices] at hlen ⊢
    rw [UInt16.toNat_add, h3]
    omega
  · intro b hb
    have hb' : b ∈ g.loans := by
      simp only [Owners.loans, List.nil_append, List.mem_append] at hb ⊢
      tauto
    refine (h6 b hb').frame (fun a ha => hother a (hrest b ?_ a ha)) fun _ _ => rfl
    simpa [Owners.loans] using hb
  · simpa [hpc, taken, State.setDesc, Virtq.usedFrom] using h9
  · exact SenderOk.frame h10 fun a ha => hother a (hheld a ha)
  · simpa [hpc, handlerBuf, hcur, State.setDesc] using h12

theorem handler_step {s t : State β ρ} {g : Owners β} (h : Inv d qsz s g)
    (ht : handlerStep d s = some t) : ∃ g', Inv d qsz t g' := by
  have hh := h.handler
  cases hpc : s.handler with
  | off => simp [handlerStep, hpc] at ht
  | mask =>
    rw [hpc] at hh
    simp only [handlerStep, hpc] at ht
    obtain rfl := Option.some.inj ht
    exact ⟨g, h.handler_moves virtqAvailFNoInterrupt s.transLock s.freed s.q.last .test
      (by rw [hpc]; rfl) hh (by rw [hpc]; rfl)⟩
  | test =>
    rw [hpc] at hh
    simp only [handlerStep, hpc] at ht
    obtain rfl := Option.some.inj ht
    by_cases hne : s.q.last ≠ s.q.used.index
    · rw [if_pos hne]
      exact ⟨g, h.handler_moves s.q.avail.flag s.transLock s.freed s.q.last .read
        (by rw [hpc]; rfl) ⟨hh, hne⟩ (by rw [hpc]; rfl)⟩
    · rw [if_neg hne]
      exact ⟨g, h.handler_moves s.q.avail.flag s.transLock s.freed s.q.last .unmask
        (by rw [hpc]; rfl) hh (by rw [hpc]; rfl)⟩
  | read =>
    simp only [handlerStep, hpc] at ht
    obtain rfl := Option.some.inj ht
    obtain ⟨c, rest, -, h'⟩ := read_step h hpc
    exact ⟨_, h'⟩
  | lookup head =>
    rw [hpc] at hh
    simp only [handlerStep, hpc] at ht
    obtain rfl := Option.some.inj ht
    obtain ⟨c, hcur, rfl⟩ := hh
    refine ⟨g, h.handler_moves s.q.avail.flag s.transLock s.freed s.q.last (.lock c.head _ _)
      (by rw [hpc]; rfl) ⟨c, hcur, rfl, rfl, ?_⟩ (by rw [hpc]; rfl)⟩
    cases d.recordEarly <;> rfl
  | lock head idx early =>
    rw [hpc] at hh
    simp only [handlerStep, hpc] at ht
    obtain ⟨-, ht⟩ := Option.ite_none_left_eq_some.mp ht
    obtain rfl := Option.some.inj ht
    exact ⟨g, h.handler_moves s.q.avail.flag true s.freed s.q.last (.splice head idx early)
      (by rw [hpc]; rfl) hh (by rw [hpc]; rfl)⟩
  | splice head idx early =>
    simp only [handlerStep, hpc] at ht
    obtain rfl := Option.some.inj ht
    obtain ⟨c, -, h'⟩ := splice_step h hpc
    exact ⟨_, h'⟩
  | unlock nb =>
    rw [hpc] at hh
    simp only [handlerStep, hpc] at ht
    obtain rfl := Option.some.inj ht
    exact ⟨g, h.handler_moves s.q.avail.flag false s.freed s.q.last (.free nb)
      (by rw [hpc]; rfl) hh (by rw [hpc]; rfl)⟩
  | free nb =>
    rw [hpc] at hh
    simp only [handlerStep, hpc] at ht
    obtain rfl := Option.some.inj ht
    exact ⟨g, h.handler_moves s.q.avail.flag s.transLock (s.freed ++ [nb]) s.q.last .advance
      (by rw [hpc]; rfl) hh (by rw [hpc]; simp [handlerBuf])⟩
  | advance =>
    rw [hpc] at hh
    simp only [handlerStep, hpc] at ht
    obtain rfl := Option.some.inj ht
    exact ⟨g, h.handler_moves s.q.avail.flag s.transLock s.freed (s.q.last + 1) .test
      (by rw [hpc]; rfl) hh (by rw [hpc]; rfl)⟩
  | unmask =>
    rw [hpc] at hh
    simp only [handlerStep, hpc] at ht
    obtain rfl := Option.some.inj ht
    exact ⟨g, h.handler_moves 0 s.transLock s.freed s.q.last .off
      (by rw [hpc]; rfl) hh (by rw [hpc]; rfl)⟩

theorem fetch_step {s t : State β ρ} {g : Owners β} (h : Inv d qsz s g)
    (ht : deviceFetch s = some t) : ∃ g', Inv d qsz t g' := by
  unfold deviceFetch at ht
  obtain ⟨hne, ht⟩ := Option.ite_none_left_eq_some.mp ht
  obtain rfl := Option.some.inj ht
  obtain ⟨h1, h2, h3, h4, h5, h6, h7, h8, h9, h10, h11, h12, h13⟩ := h
  rw [Virtq.availFrom, window_pop hne] at h7
  cases havail : g.avail with
  | nil => simp [havail] at h7
  | cons c rest =>
    rw [havail] at h7
    obtain ⟨hc, hrest⟩ := List.cons.inj h7
    refine ⟨{ g with inFlight := g.inFlight ++ [c], avail := rest },
      h1, ?_, h3, h4, h5, ?_, hrest, ?_, h9, h10, h11, h12, ?_⟩
    · simpa [Owners.all, Owners.loans, havail] using h2
    · simpa [Owners.loans, havail] using h6
    · simp [h8, hc]
    · simpa [havail] using h13

theorem complete_step {s t : State β ρ} {g : Owners β} {i : ℕ} (hp : PowTwo qsz)
    (h : Inv d qsz s g) (ht : deviceComplete d s i = some t) : ∃ g', Inv d qsz t g' := by
  have hcount := h.count
  have hused := h.used_gap
  have hlt := qsz.toNat_lt
  obtain ⟨h1, h2, h3, h4, h5, h6, h7, h8, h9, h10, h11, h12, h13⟩ := h
  unfold deviceComplete at ht
  rw [h8, List.getElem?_map] at ht
  cases hi : g.inFlight[i]? with
  | none => simp [hi] at ht
  | some c =>
    simp only [hi, Option.map_some] at ht
    obtain rfl := Option.some.inj ht
    obtain ⟨hlen, hget⟩ := List.getElem?_eq_some_iff.mp hi
    have hc : c ∈ g.loans := by
      have := List.mem_of_getElem? hi
      simp [Owners.loans, this]
    have hperm : (c :: g.inFlight.eraseIdx i).Perm g.inFlight := by
      rw [← hget]
      exact List.getElem_cons_eraseIdx_perm hlen
    -- `c` is outstanding and not yet used, so the used ring has room
    have hroom : g.used.length < qsz.toNat := by
      simp only [Owners.loans, List.length_append] at hcount
      omega
    refine ⟨{ g with used := g.used ++ [c], inFlight := g.inFlight.eraseIdx i },
      h1, ?_, h3, h4, h5, ?_, h7, ?_, ?_, ?_, ?_, ?_, ?_⟩
    · refine List.Perm.trans ?_ h2
      have hnodes := hperm.flatMap_right Loan.nodes
      rw [List.perm_iff_count] at hnodes ⊢
      intro a
      have := hnodes a
      simp only [Owners.all, Owners.loans, List.count_append, List.flatMap_append,
        List.flatMap_cons, List.flatMap_nil, List.append_nil] at this ⊢
      omega
    · intro b hb
      apply h6
      have := List.Perm.mem_iff hperm (a := b)
      simp only [Owners.loans, List.mem_append, List.mem_cons, List.not_mem_nil, or_false]
        at hb this ⊢
      tauto
    · simp [List.eraseIdx_map]
    · simp only [Virtq.usedFrom] at h9 ⊢
      rw [window_push (h1 ▸ hp) (by rw [hused, h1]; exact hroom), List.map_append, h9]
      simp
    · cases hpc : s.sender <;> rw [hpc] at h10 <;> exact h10
    · refine h11.frame (fun b hb => h6 b (mem_loans_of_current hb)) (fun _ _ _ _ => rfl)
        (fun _ _ _ _ => rfl) rfl fun hpc hne heq => ?_
      rw [hpc] at hused
      have hsucc := @gap_succ s.q.last s.q.used.index (by simp only [taken] at hused; omega)
      rw [gap_eq_zero.mpr heq] at hsucc
      omega
    · rw [h12, (h6 c hc).bufOf]
      simp
    · rw [(h6 c hc).bufOf]
      refine h13.trans ?_
      have hbufs := hperm.map Loan.buf
      simp only [List.map_append, List.append_assoc, List.map_cons] at hbufs ⊢
      refine List.Perm.append_left _ ?_
      exact (hbufs.symm.append_right _)

theorem step_preserves_invariant (hp : PowTwo qsz) (hq : d.minRing ≤ qsz.toNat) {s t : State β ρ}
    {g : Owners β} {e : Event β} (h : Inv d qsz s g) (ht : next d s e = some t) :
    ∃ g', Inv d qsz t g' := by
  cases e with
  | output p => exact ⟨g, output_step hq h ht⟩
  | sender => exact sender_step hp h ht
  | enter =>
    simp only [next] at ht
    split at ht
    next hpc =>
      obtain rfl := Option.some.inj ht
      have hh := h.handler
      rw [hpc] at hh
      exact ⟨g, h.handler_moves s.q.avail.flag s.transLock s.freed s.q.last .mask
        (by rw [hpc]; rfl) hh (by rw [hpc]; rfl)⟩
    next => simp at ht
  | handler => exact handler_step h ht
  | fetch => exact fetch_step h ht
  | complete i => exact complete_step hp h ht
  | raise =>
    simp only [next] at ht
    obtain ⟨-, ht⟩ := Option.ite_none_right_eq_some.mp ht
    obtain rfl := Option.some.inj ht
    obtain ⟨h1, h2, h3, h4, h5, h6, h7, h8, h9, h10, h11, h12, h13⟩ := h
    exact ⟨g, h1, h2, h3, h4, h5, h6, h7, h8, h9, h10, h11, h12, h13⟩
  | usedFlag flag =>
    obtain rfl := Option.some.inj ht
    obtain ⟨h1, h2, h3, h4, h5, h6, h7, h8, h9, h10, h11, h12, h13⟩ := h
    refine ⟨g, h1, h2, h3, h4, h5, h6, h7, h8, h9, ?_, ?_, h12, h13⟩
    · cases hpc : s.sender <;> rw [hpc] at h10 <;> exact h10
    · cases hpc : s.handler <;> rw [hpc] at h11 <;> exact h11

theorem reachable_invariant (hp : PowTwo qsz) (hq : d.minRing ≤ qsz.toNat) {s : State β ρ}
    (h : Reachable (system d qsz) s) : ∃ g, Inv d qsz s g := by
  induction h with
  | init hi => exact ⟨_, init_inv hp.pos hi⟩
  | step _ _ ht ih =>
    obtain ⟨g, hI⟩ := ih
    exact step_preserves_invariant hp hq hI ht

end VirtnetTxSteps
