/-
A rendered WireGuard configuration says which one it is (`internal/networking/wireguard_config.go`).
The text is read as lines: a header and its fields for the interface, and for each peer a
blank line, a header and its fields.
-/
import EdgeFabric.Lib.Lines
import EdgeFabric.Networking.WireGuard

namespace EdgeFabric
open Lines

def fieldIf (c : Bool) (key value : String) : Field := (key.toList, if c then some value.toList else none)

def WireGuardPeerConfig.fields (p : WireGuardPeerConfig) : List Field :=
  [fieldIf true "PublicKey = " p.publicKey, fieldIf (p.presharedKey ≠ "") "PresharedKey = " p.presharedKey,
    fieldIf (p.allowedIPs ≠ []) "AllowedIPs = " (", ".intercalate p.allowedIPs),
    fieldIf (p.endpoint ≠ "") "Endpoint = " p.endpoint,
    fieldIf (0 < p.persistentKeepalive) "PersistentKeepalive = " (toString p.persistentKeepalive)]

def WireGuardConfig.fields (c : WireGuardConfig) : List Field :=
  [fieldIf true "PrivateKey = " c.privateKey, fieldIf true "Address = " c.address,
    fieldIf (0 < c.listenPort) "ListenPort = " (toString c.listenPort), fieldIf (c.dns ≠ "") "DNS = " c.dns]

def sections (peers : List WireGuardPeerConfig) : List (List Char) :=
  peers.flatMap fun p => [] :: "[Peer]".toList :: lines p.fields

theorem lineIf_toList (c : Bool) (key value : String) :
    (lineIf c (key ++ value)).toList = (fieldIf c key value).text := by
  cases c <;> simp [lineIf, fieldIf, Field.text]

theorem fieldIf_true_text (key value : String) :
    (fieldIf true key value).text = key.toList ++ (value.toList ++ ['\n']) := rfl

theorem WireGuardPeerConfig.render_toList (p : WireGuardPeerConfig) :
    p.render.toList = unlines ([] :: "[Peer]".toList :: lines p.fields) := by
  have hstart : "\n[Peer]\nPublicKey = ".toList = '\n' :: ("[Peer]".toList ++ '\n' :: "PublicKey = ".toList) := by simp
  have hbreak : "\n".toList = ['\n'] := by simp
  unfold render fields
  simp only [String.toList_append, lineIf_toList, unlines_cons, unlines_lines_cons, unlines_lines_nil,
    fieldIf_true_text]
  rw [hstart, hbreak]
  simp only [List.append_assoc, List.cons_append, List.nil_append, List.append_nil]

theorem WireGuardConfig.render_toList (c : WireGuardConfig) :
    c.render.toList = unlines ("[Interface]".toList :: (lines c.fields ++ sections c.peers)) := by
  have hstart : "[Interface]\nPrivateKey = ".toList = "[Interface]".toList ++ '\n' :: "PrivateKey = ".toList := by simp
  have haddress : "\nAddress = ".toList = '\n' :: "Address = ".toList := by simp
  have hbreak : "\n".toList = ['\n'] := by simp
  have hpeers : (String.join (c.peers.map WireGuardPeerConfig.render)).toList = unlines (sections c.peers) := by
    simp only [String.toList_join, List.flatMap_map, WireGuardPeerConfig.render_toList, sections, unlines,
      List.flatMap_assoc]
  unfold render fields
  simp only [String.toList_append, lineIf_toList, unlines_cons, unlines_append, unlines_lines_cons, unlines_lines_nil,
    fieldIf_true_text]
  rw [hstart, haddress, hbreak, hpeers]
  simp only [List.append_assoc, List.cons_append, List.nil_append]

/-! ## Reading the fields back -/

/-- No line break in a field and no comma in an allowed address. -/
structure WireGuardPeerConfig.Plain (p : WireGuardPeerConfig) : Prop where
  publicKey : '\n' ∉ p.publicKey.toList
  presharedKey : '\n' ∉ p.presharedKey.toList
  endpoint : '\n' ∉ p.endpoint.toList
  allowedIPs : ∀ ip ∈ p.allowedIPs, '\n' ∉ ip.toList ∧ ',' ∉ ip.toList

structure WireGuardConfig.Plain (c : WireGuardConfig) : Prop where
  privateKey : '\n' ∉ c.privateKey.toList
  address : '\n' ∉ c.address.toList
  dns : '\n' ∉ c.dns.toList
  listenPort : 0 ≤ c.listenPort
  peers : ∀ p ∈ c.peers, p.Plain

theorem toList_toString (n : Nat) : (toString n).toList = Nat.toDigits 10 n := by
  exact String.toList_ofList

theorem toString_injective {m n : Nat} (h : toString m = toString n) : m = n := by
  have hdigits := congrArg (Digits.parse 10)
    ((toList_toString m).symm.trans ((congrArg String.toList h).trans (toList_toString n)))
  rwa [Digits.parse_toDigits (by decide) (by decide), Digits.parse_toDigits (by decide) (by decide),
    Option.some.injEq] at hdigits

theorem fieldIf_injective {c c' : Bool} {key value value' : String} (h : fieldIf c key value = fieldIf c' key value') :
    c = c' ∧ (c = true → value = value') := by
  cases c <;> cases c' <;> simp_all [fieldIf, String.toList_inj]

theorem joined_injective {x x' : List Char} {xs xs' : List (List Char)} (h : ∀ y ∈ x :: xs, ',' ∉ y)
    (h' : ∀ y ∈ x' :: xs', ',' ∉ y)
    (heq : x ++ xs.flatMap ([',', ' '] ++ ·) = x' ++ xs'.flatMap ([',', ' '] ++ ·)) : x = x' ∧ xs = xs' := by
  induction xs generalizing x x' xs' with
  | nil =>
    cases xs' with
    | nil => simpa using heq
    | cons y' ys' => exact absurd (h x (by simp)) (by rw [show x = _ from (List.append_nil x).symm.trans heq]; simp)
  | cons y ys ih =>
    cases xs' with
    | nil => exact absurd (h' x' (by simp)) (by rw [show x' = _ from (List.append_nil x').symm.trans heq.symm]; simp)
    | cons y' ys' =>
      have hcut := congrArg (Text.cut ',') heq
      simp only [List.flatMap_cons, List.cons_append, List.nil_append] at hcut
      rw [Text.cut_append (h x (by simp)), Text.cut_append (h' x' (by simp))] at hcut
      simp only [Option.some.injEq, Prod.mk.injEq, List.cons.injEq, true_and] at hcut
      obtain ⟨rfl, rfl⟩ := ih (fun z hz => h z (List.mem_cons_of_mem _ hz))
        (fun z hz => h' z (List.mem_cons_of_mem _ hz)) hcut.2
      exact ⟨hcut.1, rfl⟩

theorem intercalate_toList (x : String) (xs : List String) :
    (", ".intercalate (x :: xs)).toList = x.toList ++ (xs.map String.toList).flatMap ([',', ' '] ++ ·) := by
  induction xs generalizing x with
  | nil => simp
  | cons y ys ih =>
    have hcons : (", ".intercalate (x :: y :: ys)).toList = x.toList ++
      ([',', ' '] ++ (", ".intercalate (y :: ys)).toList) := by
      rw [String.toList_intercalate, String.toList_intercalate]
      simp [List.intercalate]
    rw [hcons, ih]
    simp

theorem fieldIf_text {key a b : String} (h : fieldIf (a ≠ "") key a = fieldIf (b ≠ "") key b) : a = b := by
  obtain ⟨hif, hvalue⟩ := fieldIf_injective h
  by_cases ha : a = ""
  · have hb : b = "" := by simpa [ha] using hif
    rw [ha, hb]
  · exact hvalue (by simp [ha])

theorem fieldIf_number {key : String} {m n : Nat}
    (h : fieldIf (0 < m) key (toString m) = fieldIf (0 < n) key (toString n)) : m = n := by
  obtain ⟨hif, hvalue⟩ := fieldIf_injective h
  by_cases hm : 0 < m
  · exact toString_injective (hvalue (by simp [hm]))
  · simp only [hm, decide_false, Bool.false_eq, decide_eq_false_iff_not] at hif
    omega

theorem fieldIf_list {key : String} {xs ys : List String} (hxs : ∀ x ∈ xs, ',' ∉ x.toList)
    (hys : ∀ y ∈ ys, ',' ∉ y.toList)
    (h : fieldIf (xs ≠ []) key (", ".intercalate xs) = fieldIf (ys ≠ []) key (", ".intercalate ys)) : xs = ys := by
  obtain ⟨hif, hvalue⟩ := fieldIf_injective h
  cases xs with
  | nil => simpa using hif
  | cons x xs =>
    cases ys with
    | nil => simp at hif
    | cons y ys =>
      have hjoined := congrArg String.toList (hvalue (by simp))
      rw [intercalate_toList, intercalate_toList] at hjoined
      obtain ⟨hx, hrest⟩ := joined_injective (by simpa using hxs) (by simpa using hys) hjoined
      rw [String.toList_inj.mp hx, List.map_injective_iff.mpr (fun _ _ => String.toList_inj.mp) hrest]

theorem WireGuardPeerConfig.eq_of_fields {p q : WireGuardPeerConfig} (hp : p.Plain) (hq : q.Plain)
    (h : p.fields = q.fields) : p = q := by
  simp only [fields, List.cons.injEq, and_true] at h
  obtain ⟨hpublic, hpsk, hips, hendpoint, hkeepalive⟩ := h
  cases p
  cases q
  simp only [mk.injEq]
  exact ⟨(fieldIf_injective hpublic).2 rfl, fieldIf_text hpsk,
    fieldIf_list (fun x hx => (hp.allowedIPs x hx).2) (fun x hx => (hq.allowedIPs x hx).2) hips, fieldIf_text hendpoint,
    fieldIf_number hkeepalive⟩

theorem not_mem_fieldIf {c : Bool} {key value : String} (hkey : '\n' ∉ key.toList) (hvalue : '\n' ∉ value.toList) :
    '\n' ∉ (fieldIf c key value).1 ∧ ∀ v ∈ (fieldIf c key value).2, '\n' ∉ v := by
  cases c <;> simp [fieldIf, hkey, hvalue]

theorem not_mem_toString (n : Nat) : '\n' ∉ (toString n).toList := by
  rw [toList_toString]
  exact Digits.not_mem_toDigits (by decide) (by decide) (by decide)

theorem WireGuardPeerConfig.Plain.lines {p : WireGuardPeerConfig} (h : p.Plain) : ∀ l ∈ lines p.fields, '\n' ∉ l := by
  have hips : '\n' ∉ (", ".intercalate p.allowedIPs).toList := by
    cases hip : p.allowedIPs with
    | nil => simp
    | cons x xs =>
      have hnone : ∀ y ∈ x :: xs, '\n' ∉ y.toList := fun y hy => (h.allowedIPs y (hip ▸ hy)).1
      rw [intercalate_toList]
      simpa using hnone
  refine not_mem_lines ?_
  simp only [fields, List.forall_mem_cons, List.not_mem_nil, false_implies, implies_true, and_true]
  exact ⟨not_mem_fieldIf (by decide) h.publicKey, not_mem_fieldIf (by decide) h.presharedKey,
    not_mem_fieldIf (by decide) hips,
    not_mem_fieldIf (by decide) h.endpoint, not_mem_fieldIf (by decide) (not_mem_toString _)⟩

theorem head_sections (ps : List WireGuardPeerConfig) : ∀ l ∈ (sections ps).head?, l = [] := by
  cases ps <;> simp [sections]

theorem sections_injective {ps qs : List WireGuardPeerConfig} (hps : ∀ p ∈ ps, p.Plain) (hqs : ∀ q ∈ qs, q.Plain)
    (h : sections ps = sections qs) : ps = qs := by
  induction ps generalizing qs with
  | nil =>
    cases qs with
    | nil => rfl
    | cons q qs => simp [sections] at h
  | cons p ps ih =>
    cases qs with
    | nil => simp [sections] at h
    | cons q qs =>
      have hlines : lines p.fields ++ sections ps = lines q.fields ++ sections qs :=
        (List.cons.inj (List.cons.inj h).2).2
      have hapart : (p.fields.map Prod.fst).Pairwise Apart :=
        of_decide_eq_true (show decide (["PublicKey = ".toList, "PresharedKey = ".toList, "AllowedIPs = ".toList,
          "Endpoint = ".toList, "PersistentKeepalive = ".toList].Pairwise Apart) = true by decide)
      have hkeys : p.fields.map Prod.fst = q.fields.map Prod.fst := rfl
      obtain ⟨hfields, hrest⟩ := lines_injective hkeys hapart (by simp [WireGuardPeerConfig.fields, fieldIf])
        (head_sections ps) (head_sections qs) hlines
      rw [WireGuardPeerConfig.eq_of_fields (hps p (by simp)) (hqs q (by simp)) hfields,
        ih (fun p hp => hps p (by simp [hp])) (fun q hq => hqs q (by simp [hq])) hrest]

theorem WireGuardConfig.eq_of_fields {c d : WireGuardConfig} (hc : c.Plain) (hd : d.Plain) (h : c.fields = d.fields)
    (hpeers : c.peers = d.peers) : c = d := by
  obtain ⟨m, hm⟩ := Int.eq_ofNat_of_zero_le hc.listenPort
  obtain ⟨n, hn⟩ := Int.eq_ofNat_of_zero_le hd.listenPort
  simp only [fields, List.cons.injEq, and_true, hm, hn, Int.natCast_pos] at h
  obtain ⟨hkey, haddress, hport, hdns⟩ := h
  have hport : c.listenPort = d.listenPort := by rw [hm, hn, fieldIf_number hport]
  cases c
  cases d
  simp only [mk.injEq]
  exact ⟨(fieldIf_injective hkey).2 rfl, (fieldIf_injective haddress).2 rfl, hport, fieldIf_text hdns, hpeers⟩

theorem WireGuardConfig.Plain.lines {c : WireGuardConfig} (h : c.Plain) :
    ∀ l ∈ "[Interface]".toList :: (lines c.fields ++ sections c.peers), '\n' ∉ l := by
  obtain ⟨n, hn⟩ := Int.eq_ofNat_of_zero_le h.listenPort
  have hfields : ∀ l ∈ Lines.lines c.fields, '\n' ∉ l := by
    refine not_mem_lines ?_
    simp only [fields, List.forall_mem_cons, List.not_mem_nil, false_implies, implies_true, and_true]
    exact ⟨not_mem_fieldIf (by decide) h.privateKey, not_mem_fieldIf (by decide) h.address,
      not_mem_fieldIf (by decide) (hn ▸ not_mem_toString n), not_mem_fieldIf (by decide) h.dns⟩
  intro l hl
  rcases List.mem_cons.mp hl with rfl | hl
  · decide
  · rcases List.mem_append.mp hl with hl | hl
    · exact hfields l hl
    · obtain ⟨p, hp, hl⟩ := List.mem_flatMap.mp hl
      rcases List.mem_cons.mp hl with rfl | hl
      · decide
      · rcases List.mem_cons.mp hl with rfl | hl
        · decide
        · exact (h.peers p hp).lines l hl

/-- Two configurations with one text are the same: keys, address, port, DNS and the peers in
their order. -/
theorem render_injective {c d : WireGuardConfig} (hc : c.Plain) (hd : d.Plain) (h : c.render = d.render) : c = d := by
  have hlines := congrArg String.toList h
  rw [c.render_toList, d.render_toList] at hlines
  have hlines := (List.cons.inj (unlines_injective hc.lines hd.lines hlines)).2
  have hapart : (c.fields.map Prod.fst).Pairwise Apart :=
    of_decide_eq_true (show decide (["PrivateKey = ".toList, "Address = ".toList, "ListenPort = ".toList,
      "DNS = ".toList].Pairwise Apart) = true by decide)
  have hkeys : c.fields.map Prod.fst = d.fields.map Prod.fst := rfl
  obtain ⟨hfields, hrest⟩ := lines_injective hkeys hapart (by simp [WireGuardConfig.fields, fieldIf])
    (head_sections c.peers) (head_sections d.peers) hlines
  exact WireGuardConfig.eq_of_fields hc hd hfields (sections_injective hc.peers hd.peers hrest)

def Sample.hubText (allowedIPs : List String) : WireGuardConfig where
  privateKey := "hub"
  address := "10.100.0.1/16"
  listenPort := 51820
  peers := [{ publicKey := "node", allowedIPs, endpoint := "", persistentKeepalive := 25 }]

theorem Sample.hubText_plain {allowedIPs : List String} (h : ∀ ip ∈ allowedIPs, '\n' ∉ ip.toList ∧ ',' ∉ ip.toList) :
    (Sample.hubText allowedIPs).Plain where
  privateKey := by simp [hubText]
  address := by simp [hubText]
  dns := by simp [hubText]
  listenPort := by simp [hubText]
  peers p hp := by
    obtain rfl := List.mem_singleton.mp hp
    exact ⟨by simp, by simp, by simp, h⟩

theorem render_injective_addresses :
    (Sample.hubText ["10.100.0.5/32", "10.0.0.0/8"]).render ≠ (Sample.hubText ["10.100.0.5/32"]).render := by
  intro h
  have heq := render_injective (Sample.hubText_plain (by decide)) (Sample.hubText_plain (by decide)) h
  simp [Sample.hubText] at heq

end EdgeFabric
