import CodeAudit.Arithmetic

/-!
# Tables of character properties

Each property of characters above ASCII is a list of numbers. Ranges, runs and single characters are in ascending order,
each written as its distance from the one before. ASCII is decided by rules where the tables are used, so no table
starts below U+0080. The tables follow version 14 of the Unicode character database.

The tables are one text, and the words of names of characters are another one. Such a text is given by answers to
questions, bit by bit. From the answers so far each place in it learns how likely the next ones are, and the text is one
fraction in base 84: each answer takes its share of the range in which the fraction lies, so a likely answer costs little.
-/

namespace CodeAudit.Text

/-- The digit that a sign of a table stands for; line ends and blanks are none. -/
def tableDigit? (c : Char) : Option Nat :=
  "0123456789ABCDEFGHIJKLMNOPQRSTUVWXYZabcdefghijklmnopqrstuvwxyz!$%&()*+,.:;<=>?[]^_~|".toList.idxOf? c

/-! ## Chances -/

/-- Chances in parts of 4096 at odds from e ^ -8 to e ^ 8, each of them e ^ (1 / 2) times the one before. -/
def chanceSteps : Array Nat :=
  #[1, 2, 3, 6, 10, 16, 27, 45, 73, 120, 194, 310, 488, 747, 1101, 1546, 2047, 2549, 2994, 3348, 3607, 3785, 3901, 3975,
    4022, 4050, 4068, 4079, 4085, 4089, 4092, 4093, 4094]

/-- The chance, in parts of 4096, at odds given by their logarithm in parts of 256. -/
def chanceOf (odds : Int) : Nat :=
  let n := (max (-2047) (min 2047 odds) + 2048).toNat
  (chanceSteps.getD (n / 128) 0 * (128 - n % 128) + chanceSteps.getD (n / 128 + 1) 0 * (n % 128) + 64) / 128

def oddsTable : Array Int :=
  (List.range 4095).foldl (fun table n =>
    let odds := Int.ofNat n - 2047
    table ++ Array.replicate (chanceOf odds + 1 - table.size) odds) #[]

/-- What a chance becomes by one more answer. It is one number, parts of 65536 and how often they have been learnt; the
first answers count most. -/
def learnt (yes : Bool) (chance : Nat) : Nat :=
  let times := chance % 16
  let p := chance / 16
  let share := fun n => n * 10 / (10 * times + 12)
  (if yes then p + share (65535 - p) else p - share p) * 16 + min 8 (times + 1)

/-! ## Answers -/

structure Answers where
  digits : List Nat
  point : Nat
  range : Nat
  chances : Array Nat
  /-- How much the odds of each place count. -/
  weights : List Int

def placeStep (place n : Nat) : Nat := (place * 69621 + n + 1) % 2147483647

namespace Answers

def refill (r : Answers) : Answers :=
  if r.range < 84 ^ 4 then
    { r with digits := r.digits.tail, point := r.point * 84 + r.digits.headD 0, range := r.range * 84 }
  else r

def slot (chances : Array Nat) (question place : Nat) : Nat := placeStep place question % chances.size

def oddsAt (chances : Array Nat) (question place : Nat) : Int :=
  let chance := chances.getD (slot chances question place) 0
  if chance % 16 == 0 then 0 else oddsTable.getD (chance / 256) 2047

def sumOdds (chances : Array Nat) (question : Nat) : (places : List Nat) → (weights : List Int) → Int
  | place :: places, w :: weights => oddsAt chances question place * w + sumOdds chances question places weights
  | _, _ => 0

/-- The weights after an answer that was missed by some chance: places that had been right count more. -/
def adjusted (chances : Array Nat) (question : Nat) (missed : Int) :
    (places : List Nat) → (weights : List Int) → List Int
  | place :: places, w :: weights =>
    (w + (oddsAt chances question place * missed * 16 + 32768) / 65536) :: adjusted chances question missed places weights
  | _, _ => []

def answer (r : Answers) (places : List Nat) (question : Nat) : Bool × Answers :=
  let ⟨digits, point, range, chances, weights⟩ := r
  let chance := max 1 (min 4095 (chanceOf (sumOdds chances question places weights / 65536)))
  let bound := range * chance / 4096
  let yes := decide (point < bound)
  let weights := adjusted chances question ((if yes then 4096 else 0) - Int.ofNat chance) places weights
  let chances := places.foldl (fun chances place => chances.modify (slot chances question place) (learnt yes)) chances
  let r : Answers := {
    digits, chances, weights
    point := if yes then point else point - bound
    range := if yes then bound else range - bound }
  (yes, r.refill.refill)

def number (r : Answers) (bits : Nat) (places : List Nat) : Nat × Answers :=
  let (n, r) := (List.range bits).foldl (fun (n, r) _ =>
    let (yes, r) := r.answer places n
    (2 * n + yes.toNat, r)) (1, r)
  (n - 2 ^ bits, r)

def ofText (text : String) : Answers :=
  let digits := text.toList.filterMap tableDigit?
  { digits := digits.drop 5
    point := (digits.take 5).foldl (fun n d => n * 84 + d) 0
    range := 84 ^ 5
    chances := Array.replicate (2 ^ 22) (32768 * 16)
    weights := List.replicate 5 15000 }

end Answers

/-! ## Tables -/

/-- The digits of all tables. Those below 54 end a number, those from there on come before the last one and count from 1
to 30, and 84 ends a table. -/
def tableText : String :=
  "lFsnVg6<?Y9uP:dV0J;J,|1nAC9|jiq%;b0ja=?)aZ<vC4H7,&^x5u4H>xz8tQIy$YPmfRy>?3>ysDJGbYCq|1hV^YG%^dNa=vRK:a~V(*R4kPjk6la.cNIe<Xuf3InBONJnbgjYpNnxk&TCt8sd)P<qH,uz2Rv1lT4T4X)R(+x~;jUQzXCtzqbh9,9QSQT1d;0jjFW*f7EZwN]D%S&~ZHs(5H[y2(;a]SAF;pVip:eXOQSc],*NXuC[s;<N!m&6GppH[3I[Hw28xwYv>^fwMR2_E4zUzlZYzkLW_j;)~>^WCf.D_m.VA:y$gzdN,NM=A%KqX)OZgbrIMd]ZlX]qQt]Mrx^9kZjgygb)&C?.A%9[iq4=_Z<wIP!d3FHWf6,uavHzh?8f.x^.iwX7LgJo%f,=8W^zEunto*jkm2,9S%d:$O=FbJRRc|j*z,Q3;pS0!k36EQ?L5!Dv4%gQ<?Th64sGqPVvS^)8y0F(nOZ4OZUpkA5s.kd%
   +_ECH):nC*?d+_g73)dn[:Y,t!=Ome)>3U!lX3V9(dI7M*<mgEU[ss~q80RLZvXC<*ii3wKn:2xtF[GV4(~Z|R|oqvFkp+7;8vvX+>1fV8U<)%GX;9W|WGM&d]W5S;q_3|z>nYCAs0LUI<X2oYxNPDw!*qkJe;fEy2U9NMbg.~jv!%0uqZzq18S2XA0I4OnF(D)Y>Uv.>|p^VlFCA,*dQU6[cZcd>HHu8ETS!X~htymmEu^bVnl*&t*EcE)hUtb**5Z~L,,V(!5q$dbBF5X,2[+X_t9uFw%uotl3D.t*Tb4EZw?>7Pj;~1yyT9+TBuDeVb!YU&iq<;<<u8fI4~8&:MlAlhc..d!siBFIz?qg%LS);>cpg|KuaRB~hc*M8<qQcF=F[x$[:doP~vpQSM;%a2T)2^DC_ON&*H<KO,|gelDE1u!O2G~](aNHkGdlDEOIpT%ennwsa^:O]zPv=*ZBH6,AHx,eV96TK60Ykwo%nSkXag|6jWMJ
   ~%)Yj6r1D|N&ffpU1CdD(BP:5,ltnPKKOmFD)y>6)R64MQI|zYs8nzedThxn*Z)7f>jKtu.wNnu*+>VdK0ra|?%OpVZ*^R6axZaPrsu.>P>ROz*~rnr$mMb(2o9,ANxW8OcrR)N6Ev.8tFKE<9VMRlM=y1zm2tgQp^1TqPoii_vfJ]]I_u(,=j^iUXYJkn|88I5PBEsvFsSad+jifm!TXv,sJ[k*K*<Nfh,Bs0GIC%>ZV2RokrX4DU6FZ;>S7In4xjrP$LGtl5;_>?jp2Geta$uVh%Dc$LAAh*LISc7;%gJiy2N(uYHgRR:d$+gnwxRXikC1ZOQL;7w*IM3X]nMHq:LSNuJNF7swjm&Be_Jp^FU([caR8?_(ORLY69?YJobhLsvAEl64;<RthlEQ?tf~.Zty+sPhzlm=,<&(WeF[Q(gS2RCe%3MTJMSz<Jv?bx3GsvqbmH[^)G>*q6~vg?SXvl*~Iif~<[$65a,Ih,^1lL=bLP!Dt]Te
   lKb(P>svzWY8Dnd1)6(MaEfh!j3$xS5u%N)Ub0yCm;^3uFXkAVStoQWg76*I;D~EXOs=7m|O]a70*cHnLkFrlZwtBQ:CV~]K~ZqVzfCmsTmxAV|[^_=be0p6la6KbnGjE!f0VSemi.:;p)7mG1!ORiaJ7UJexY2,jp+CRY9Er5yH;jA6)Ij~,]$0j)6JiX%~*MYYVZ?BYD.%78NMAQ6m6pE5zb&7%mdUsBGr$n:s:C?2l,w$jswxgs1d?:YF%J[dkFR+t0KZaDjmR|J;s*ZS3OX:a:%5i_>ORQH=g)0rG5Qb[;?gTnAsde.0%pzPn1hxwujpax[eDR:<<B5&DU)ZUt(Ie<vu8viLyi|;~F(XiXg*$86lz(;*SnORedNG<es1yY0YnFjqRs|?H]c&wvdL2YH)OYcd95Ka?2lBqpk^<OuWGgUR3B9u?XN_3H!OxPpYgk^GXA%J&m|OpihVo6rx>2VXhsO.BNo<YW0q8U*.w1M$T^6O>TGZ
   ?&&Xa~na(+oVP$hLR&j8,8Ndll!WB.4$Bgc&fy&gYTgKx*)YICLVpS1MzwE!j58::Nc)5R*b0KzOy;vX1zo.+Z*f6OgC<jvF0w[cf;3U<Z&fAf~nNyK%1FTQ(Sya6r8wF.wJ2Qw4AJq&;eQYg,JULJVF1O[:A~?MIZEb_j+NYav5.[]05X%f:J|tol[+Zr;04h>N[Tvmi<ax?C$]4yvOI?<J!4KUbJwPH$JnEMj,2guaj9^*KkE+dq=WTQMRPQgEC~9JR6$)nDY;&Xg4kGO^FZ]e^>fp,(Bqmz;VwXxMBWC0s&gz?5X2|2D.2he:xY>*)Mj1~n6:H~~A80y*7.$XlQ2zvuwl1exekp:~!qAC;&[dZw|(,s6KWDo&eE6<*0,q%K0=Ed~BrnQO>)MD;p.~=hW,<?V6t![!Cu11dbOl2*=nwvl)sw]zGEe_j|cVLyAL&SR?vR,BbKZ|?(w$Q>+E~7mPo2zc5|[w)CRRSlVUDwRrD]iln<xn
   3f40BO9KyA55)!8U5Os32e*YnD:wkFz1Ur?LP]*uc*etI.Fwt9kRVlkg],|rNojTuJ=6u~[,LGnf%izL!$tR96m?]&z&ghPWq.W1~TlE,L0P;$M<J(Rd$>oRy+ky3yLLxCToHB9TKWYwg2L2.F|c]CxOZTIazM+[=P2^L0LuZ|N1c_6mA2n3EMhf(Wr:kr>H,B7aK=k38otc9p>S,U:>TqVszuqbzp|dCW$xxAs+tb_PqSH;qTB.E8=?N4LJ5o?Z=Etc1R:eC;.[%WU!jM!;hR7gEGDe%)%|I^rVBEz:BKPzdzA~T_T*JUM%7x!(eu,s6yuBuS;tHB)BoeW)K&Q*H7Jj64aR^mJ+IDjlGaxH=yXF9&r4tmbEqQY0FvS_ZLRx+au>om6f+c=ECi9&%]E0BVM8]|g^kUTIJ8U.!Ve,f7$<nN&T.s=^m;+!v^PP~|_C&_%L[x:fj.=j^~$Wgp6>pFM^c?QWT_5_E>T%Rbp5Ycha5nlUwNI^
   ~LS,]mlkbEz!EpmInK?Pc.L.*S.B!Y4fcZ7!>mp]i9mPb9!_n1CR>2++0juY?Big,sF22;QY)~%zS!w)tn5%LxK|!OLGlR1w%PhJzV6vT,6ZPpZi.H7~zt4m+CJ;v$w%cmgq39UpSsvZUPD63Y%r|31HjV0otWIE]y:YWKd_Ba9x1f8ewrjw^=4|Mq+g:ZdEVvcjnSNA>>T|C6>ynbF^![ZJzKNVBdFAEid!wX=EzL^41=.!:zu.?)yAf;U(YG6rXwE$2JvOs=!Le|epGiUP1>eWWbadpDUD=UwJu|o)COfV1S.>K*YS9d7<(.oMFv,NOCqh.iyL7f~r4GNfaAWjC^c(.nYiJH(5A4N$A(C.56ASWZ0qEJcO?1$so+yXXAj9lRov%L$]=dYnfTjK4:NQuDFQ<0v<w>q6XM<U326xosr6i>.23KGv7)*cmf!lq>Dx^TrGSHZ:Yj8Nx]=L3$sW:wtaKLOk:IT.$|5K481W2esnkwa1PCvb
   :?!xf2e(=X?QQ<YS;P9=KuK(<m7>V8sIC&M]ZV(&BRyoOJKLE!|q(tz~7rW9z|g^eUb2:jYym,b;Ecu2>[UAxKZ=R^d=,o,;u^t<rF~JhNv_Xqf3SoKl9jGQ[o1jm=Guq:_;CjZwRP9k=n?O22aIr29r?lI[_2(b2<gM:n|eT.gU>onLDF+wv9)&DN:.>O7A5+(Er=&=VWcK9^jzy80A*+9yOH>YD9|tjC[m0A]>rGisv56N.9[B,R!;3<]giIifkX:jYy|_S~0bHjXy!Qb8B46?:[_>rB7Vw?.:BLi;:$8.4b6(fia%glVg]Xn&EsX||v(dUULm43!)Q(cmr,cj>ek[XLdc2>Lo.TO5c6?.TQd|D&_sMl,:(KoRmFxFPsp!QW7No9.JMx*$mD),50NHk)TzKJMy)*b19zh0bU<RTX0G=OKmdPm,.|C%vLo38Tw,Gjn=vWA]k8aE3|Gx?qw&]74ubP7riL*|xOV:5otyJpf5f*?gD^Ts
   B%Ks&nUuoA9DL,LTI:BTRRNlkgf9Al[vxLeR|OADx.0YKPeGYgn]Uh~.mZ7sfjl*OcikpMm;mu66KzE4?z$CbdOlLITZmSxL(jMzv8<IQH>D<ZvGbB7g_dbn5]0Re&^rEVc7;9D<zxNZexLZDy&~cnuV9p3=B;qR7.6^Tq2F79&Z_:J;1zkrot>NFGAaV&U3k83<ribS9A|,Z=<LAK3Afi%*AI&14u[8i)2=!YZU2lsL3Am,71PA]c+,ob%:(_wQC>[[RK=uxw<CnN~E5aJBY?74o+z[n<C95)G|X[!^ICKM?;xGa)wIGgaLe:p=JwXUudpbd^?.sL>!K|KL^kQ:tHSqlBp9YBGo6<0%j9~eF]B8B%686IME.s66TQQ+P_JwK04LTZ<f(j_,ev?Q4C6q!EZ$jG]k&MIhZLL)~GBQ8Vp&AUjL%$D_XT%F~C&2Z^gQ%<W.TA6S4+k*S?DD4j$jPOQulAFVp+~GNk:+~RYkrD=;SLD3fsy8
   oyBiE*+>Zc(YCH4U_L%+~z,<q7PBR8DgdCGgH21q2$5aF&k!f1ldE1B>xnC1&VTu3N1w]1xT<Nrz]8*<|hEz,Islc9Qduso0_V*AEq+3yp|])3(bntyRQDd!h?LbTPC&E%0[Ahz*!uzqMJ?FEx>RBmlKfG!&MEj.C(DN=6n~8~Ap$uSt;~7U<eg+4px:X2VBD4(odOB,Kti[|T[G$x4&gAX9$2y1:)Sng]|=F0qlno.nG%a3gy7(?y8+jNfH9Jau6P?zwdu.A!jD~e:k0;fr$:qT3r5rkGl:54>YEwjH=:yk(uR_0:fl%zLIMn;9Uw%<E$?x=eEgMdK6:~~Hm_ehfIDXjZm4OdwAM)SRn>SLy~0r);nJj3]iz_3t+beR4P$$Cr_zZ0!OAy89ieHtsMARA$?[vgl%_gkH4ua]~?897Us~(,PrsUHiFBS,.S7[ka1&GzfNLKn[X*+us=sSZ:_:LhN;g%x|r5$xMu)aN,ch!o;?vWPYgph9
   Pfh%!A7*i.7Wmls,OB)T;Iz(9C:fDK=m+Nn!|8B+]74DffVUUDy<oh4&PLHBj,7.[L9MjII1mZaJJTyfNE&8Y1X6c]zSvhP_)XJhAu,Ap7~la?STSxyG3Dm4AB)e!bfPUc%*jE:G9++K=s),nxs=VH4k?m[(*qY3i.UD>;=RLX;d5|_Q+Bf7ADW]uVkO1,Bc)(wK1!^M2GwV)U>Iig03i++0gKysFJ7NY6UFgL4cx_*+oPEZWRuQJC.xmAl=;k0+J?jxFVVnWqy!!P*2O33[^gSPH>1%hc(J<xpkf:n16N4k)o$n2w^+3WuZYODZ5K0H:JcPvXt2.Dwg!98dFUiYjgwL[?>q%)|JiKZ%W798l6~Qef*n6iAIoU!CS7OvXjcbaJ9.cX4Ml]f;3YreuOGY[uccua=k%nCNhTa,GY,QM~^T>XFs~1|6[&Mjh,gg%kr29QBCiq_o^rEl:f]cZ]?FAw;d](IOTCYY40rq7%m43tEhg<_.%876
   ;KnAu.g[CwO%oZ:~I:nD3+)Q)dA.;E;]^_PRX(YmJgOlE7nu[d3%?~GwB+XVWRz<)|zLhy,7Z_n%G7jqV=&Fx0VxVdrv,C5d1N.iS0S$f_jy(b<K&=[7Vx5[%o*1Te]fdC6kRL~LA%FLcs0,j;(0re]:IYD1Wqga&<%k|l5?wLK)+Vp^*^bGPW.qLfAJdXRA35J&Z32aaZO84JrJg[=)|1d3=V3W*hI0f[43(QU.GLhUySyMHvZihc!)jBRu,nv%||)yfWzW<lHmk!i>E0.wv+b&t7QH1yzPcs*aLbC>m|ggUkQp>]24ZqnBA1_yof^eZfl|?+Us,(p%nVf!F6L0:ZtP$bNha849kw&Ad<mv>cM&?I=<tMhJt^Ps:BjIcp)6GQ5M%Z8p8?vWS$A)l]kGKk]n%2(e4da=jS>Xk;!Avr9h~<D|DP975%G+3CtcPSR=4~8,2=NFjV25TQ)(Gmu^!f*;_2awh>,Df!)7o%h$&$8.Ks09D8jE
   B_Mv$I3c]&yj)z(*v2AElY1V.c9G*qx.Kq.k)jT~0kJq4Gainf*k0OEU+y=pTpF:oN<M7?P<*k=SY.Jg**4&fWX;Wfw0tan5&![_DxGMK]itAL1?td=)c+((Y[6q=yT4dSa>?*(]u+I:m$G9),E(>qrtesj%[g=bsT:Wu2ft204eiGHV=w]D)Dfep3ShGN8T?XKbgWupTz5oml)awM3(n>o1!I)bT)C3P)PsutphnQWL&OJYxi6c5VX([3EW!>ykGS=09HZ(dl;Ta>UqU8GSF&E[3FF|P|w~W*)MiHllj_Q4EGSf_25YO*xW9Zo3IA<NfC^^;V^4D$lAMN]f]k$V<k=<pDfG,,ODBF,O[jHqTh%LG56>a868y<.!([,VBw?i3maTElxZJHAkrs$&3LLSP48!MgM=(6|O=)nnwNMHwf:vauB[=1|bggE]75_F7|tL~vdo_*aNrY)z6;fd*ZK$_CL*o]N4xmF)fl1Cum%cA~<fUzOy.EGl
   Wc01Qd>gtsByc>Mi&oTOzmyZNZA8,xz+fmXmNQL=Wl>LB>DG;TB.v$]x$3cN?_4DBv<<y)Z<pb1e(gz0|+6rIu3Vx?DOYF0Nz)ou?.>VJYx59o0Gkp:^,XCGG;~CN6?7fiTPJZzCiwUFhMoy,<2%lyXMr5Nadds<|PV;IX7(+2?m8xtOVG2xPSk*foT|Rp15R%5o_gU&:zRV1Eo!mt+7YK%eKg$$st(<~CT[n;1e9h,M:;ip&AJa_^JK((zv1SpVWqfq,4,?rqiUynq3!X4&j?mWr)8bz*70GEgX1Q.v%f$1&g+XXeAG~w*)?_<HSF14FdGb+ZYm8sLmEZ)a!JMq(tTwR(:2W]JE1z]eIn)Y,nNVP+%DbJ9PmpJEwzA7s&nnqDAV,FMnf~*954*Y)S9tFFw^8=5([(5gH&XVh:X:81zm*NcU)9_6<cxmRTNGjU8)H.WUcOjITA(w8<X];!MxTS;[9%7%MatH,N&XgBv(149*eDU?+a4n
   LzUCkWh*wUT3s_Xs(YZkg;>0MHpZr*)ka(W7E33=9)trDpUoGE+8|oKhac*PZGH2f~!:3MZ~|_5;|cJvlaRG~%u1dBjpRso^|WC^vRRZ!tXllXlbqM^I]pl;N!pk>v2[;iNUfliCZK^XT>mhtKAHNSro;LLbLh!Z9^t$h0GQb?hTjW;x&=0BdC]VaXQ;u*EXq%CuPVYb+KiWr&L(3;O1AB>DHzrCev$:7E0?6n)(R%i~Fe+jo7wa~FaGIu3u$TSqvQ~xZC>bo;EY7d0Z!uNZdW?8fU<L(~T<DellqWjZjKJ.sCwooVk(q1WFbH<oQ6iR3D7OyW:5]dg.jI6yh],LnAy^^oi~$W2zj2(R!lQ?Ij%]8>epjVN;bJ<T&O>r^AIdqnoE&%02NhJ[9_XCEt1SL2^w0~:Z~eu$Jp$.bLK$gik0FQAR*=CJN;bhVf1^rc^MG^>LE_=sP!&6Hl$r:w9&8BVmyQeADOtP><4f*3w:vBi)(2cd0xte
   qKS~]ryLtLPSZTXVb(nhU8[0$T[>V*vE<M%Ltcz^Ki]5>wAQ&<h0mF72LyTZ^)lSvIIdCMCj0P&oX+4fm)%m,h!a4;g?n2mRuOxzJ(!*?FP$2GUrXPOkEgrjzI,X5gz!)aj!7ohS|,77(&v^YcoO]UR&R(+Cb_)3Upq&Vv$bP5NNMX4a%D+*P%k?lC]VMzi?,E;ocAWyrj2PDf<d9]Jt?$^Xm~JHdp(>Uvcn]*YH5sQi(~|HH[h(S.P^W7JSWGq)f8_^P$ZRU~ggkSVDBSDJQ~FeXv!XthJ5Qs?e[+EhHDI)G%(8O_p>[!whm3EubjFO.^Ile9u=3kq9VZd(rx8,n[a&8S1oS**C8!sO<$&~P=Euga3cvSmC$Xc;cIOT]zpA|pTyy3ZXNfBkks_,ydYEU698I<m)oq*x%]4D.f(0$|EHIGoTuO1.QXJeO^1S[aHbV$L*&OGv,H!R^Yt=RjL(%y%e$l2X*Ta.?DcUVl>2gwGy79C5:3OA
   gO;Gs2ih5O049v$l4TFW;Axp_hee1~PgW9OZ9<:~f8g~_q&IE1yeGM2]Mn4PoQq7F~FiY?[v8|O:PpFS2t0f,3IbW5%.8tL~V%6A?_Gs^IJ%OLEkWWSotjp0Y?phoKI5Ik0e=ul2d0odSA_GgDM:~t6yE&XAipIFgq3jXN4g~iZO*qnB=7hb0javas>M^:s8S367qAkKJGahPgoO?2QUzv~K_:7aUwz3P1j(3UDMngGp3=hChSz_1Xz=q?B3M++oy(btqMrh6_T0$ONN*xExSaWX5]dl9:1;>gqO~mdm.+KNg^!K._BJnR;Z+qjLi]~ETw$k0Mz,7fyZ+E3XF!vjoALYLO__[;Q7)IRO4wWNKjRZ7zJnfL<>X9a:da47495p%U,Pf!AvxO,A3rxZXekciJI82|1GYdsq):fj|:F=&*$+Y3*%B&YBYxOTCdZpf]&]17J8CVZc&VCQ[FH]kmNZu5&[SDSL[TkpcI>dn,w=uV^ll>S:pzw9
   q.wOaY%+E).je0P1AinTDRqZ9<zmk*6>2jPRQ32b*!Bem6i];pl:EI%Ws.ZQ&A7]7l4DTU]81F?W:Cx+P[*=~U^BjWk:~xF:brE[;p:cr8YcH%jDE&.:Xdw,R65;FWBXY9nDVg7a0H3?:&>9tQbo4TE4!lHy]6Yh(fGGh,Ia3;GQ+W$h=vOkxPUv^Sq25^!m.b>6kCeb;f,ZzFpXTof&hU:]AKUd(B*+F!Mss=KS)8QQsrsB=g<D08kpAKiTFzNNp:gg9hf.?h2W)C:iEUl(^<i!32xPN~hp%0v(fn&>Ec_*)[|VLTiE,|Oql*O><KjEPugF~vKWS1Vsf?sa?9tUm?+93jHYfqU_QmR|7lI^r!.Bm:YVQnyRJiLVn.P)A0~,:BGo!N2~tY9XcN6?k3j=Kq2el[[x)kp;QGfYIVy6l9gIm6oM1L^!(Wm9;4_Ct;M43**Cyaa?Q<gqgr,Bh2lXoWCUEOdnA3hb4hj64;IP$STuz7eiA!,d
   soL.^]dJ[q|dJ&wl:Ow2itB6z)J?h|Bq;77~dRjM>Q.q>NxClBbxXGKnCiui!Ao~HH<nMC^JCfb&&L8,aFT7cm8Ixt>y48>?68Z)sN0=?((o;7y(vS=,_IQt288EK?b2;?[=elkV[TO=I%f8w*<lHK4]0v=hN6u%sa^%iXegyi)|oy1iUnR%VwYG6r8KpBDNwjZ7)jbCM?lIETV.!jSB>wwr%^zE8x5iFWDG[7>Fv637C?E|<yrFXO3~MkP!itVB%UFKxb$G7ZyiQR!mNVpSY%uwSb~&GOJLVs_q)lYjX|w]SaDyPo.jhqq!LrYuc!UT*nK6L;Og$$K.Y?]ZM|Yo?Dn:&<|x$oUxN(CFJXN6U!~%X4c^<h|zf[8CjL.PcI^[ozpA6fhk0g:$b|0uk,Z)6]EZ!&gg]R^!2Gh!12r+i1dlybEj_ca^2kUtT&zs]_oFAOv1iBLoI1gK!+0^=?Fgf7IQ2<Dq;hEiZn.Erh)^FDb^Bv6G;YRm
   TL|:Afk4J:(rdZm8m4gDU59^XA2I!R<]NeUk5_e?,Gagc]Z8vyOSjii<^B2p<FAu]bSMm<7yZhPucm^=TgFBlXA0TOf$dTCUz?<_v[lVqn8a<_LFIN9vaaeo_0Aa>>:9f?10<VZ$t6B&Ftf+sHwA|SoBMy^7TQfqQjADc1i^G,BRNj]yGS&vGbbxRua~Sny$h8!Aloxk9(q*)rPxrr)zl%<op>>L5.u]Wr%]f>~*l&1VA=vT7^g!L)]0|ryD:jf|>::j9487D+*lV956Xg1(KTY7q(3Gcnw;Due(~0,n1J?D3<cL&~pUzfn.apx1q+ML&l0d7**3d:jZMLT3m[NG0S4QZamLBRn&WqO.?lL4lA|.0>LuPs1NBeS5*uLT8a?M|1?Y,6(1KwJQKM_),v,mXR2JPZfk8BR0?sk8y>OlOkt!.5X|:KMPAjlJJ&Jd)7c|W!bJ!v^I=c,v*FH;eNDmhBCkbL.Cn>g35YF!+Vm%esKZK6m]|]w%
   wL&O~H*~<xmA%e~nTx(19y(;Lev$?x$Zx8AAlIFc4CT;?4n>)M+]zxJ|<3DBZhYQ99A>KgH3<iHkcPE69N$>AotcW)*_F(*R(6cmT6xwa+in,Xb4r[&:,.6Z(=r32z~(Yt)Bck|Rd]<&LV8N<K=.~ogn^(o~K4R$O>SUSEY*(Y>M76Hg_<%[|));WiwC$oPis9m9DZFY,d~QRbR7RZJScU&mV&[[|F^f4^!Ajd)d.QO(7?0%Bw+|S_kxN21;eL%.6847X<7v)G2.TND~3!ib>ga+DpJ;CILN%tfINbUCJ]1|wm~:JETpKn0P9Hxs*92_Q.n!A5j6XkceteL1D018=_GfTs!8I[8Hq3V~byUKPwzaQBKTBxHKS+cR()+%3kXXct]EUq3m>3MW&rHsx7)idF,=Uj_8+)bkU&Tzn+ND&Nc1|(dEtL+w7F.)Ed)=rd%]kQP,R13O:gVUfIWjPrqJ:v7YsPw$cnl%fV)K!7n1lm1*d>VRQ.oz
   CgGgJZ8OUr=il%Yaw^;nQ]M8rf:D&K!td&eAE6Qv83:y!vIJJy3H=qrHM5W.&dkf>.jP&BdVEAtmM*?TqCF8;wkoV!d=5P<s]STSG22Z%*Y(bNtB&zGI~1xV$]ra_CN]MX9&0swm$6ob,M3>1<~jF%Hs]&:UUXLGI9jloO|Q]W66TdufbJ?H;mRptm9lUuF,!yG%c:mmrb))H>djnDvjXp,l2p_LQ!t!Y2mhSp4blyFENplN6~(8P_Q0=l3u]DzV!:P!LX72j~pB6y.O1(X*)]2qiphrQtb9Pz+Y0C+_$9W*Z$7^?S[mQ++Z6~kLY&.Mcs+W;LEp|[]eeIjw|Dcg8Cx>uOi]En9dlNh0rG_W)%QNU*qip;=g].Z=Uq+)Y;Qrlmh!MvjY+06[IbD%Zb2f%>$fm+8BX4SMvO2,WDZ[duIb?.h[Pkj)L,5nEnt%Pt4SB!%RebU$oqM&>3NL3+o.xQ!=p!S7fwau~ix8WsD[d*io6:Z)bdaA
   C$tP6<Z4=So+;8G3|<|d>Dm.B8N.wj,|r|Kw[l4%DL*~f5f=_Kej+4wzBG:CFf|ZKrh]gK?9.X?rAU$q^LHJJb$Re!as6yuu2JL51,^z)yi+3KhC0qWyS>QeeTs6rd0Y&?i1G^z.j8Vmi2Eti2Ht]=6wVeN>KYs28Z2zs6_~cHIO,bzw%]Za2^dBgPUYWRL!8_=CsT6:Xb+VT]5a7^no8(a0|+,:TWJ;k5%g|>DOS<&bjMlR,,Il=JjI6%p>5:mk;i8+4iG5!.TB$Cn:~LSAXHEn9ip0tJr,hAeNV7S^NWT>$^sy&R;s9<zs]mCx+tVqPN9dK&ccNh&K790|yv8$01pFelawx%7EVAvg12MidJM&AR+SC+?OL~Hw?[mw%UaiU.=XO6S|rRBUR,oqEuON)7rW+S&::FiQt*~P_U0,&C;iYJBBKeD8*&Aghq=6k|lxmdjvw~,dgHymjM[zSYPdw8wyG.EAE]^DgD3lXlAi=NfscB2:Dx0v
   A^o1cze3]MdYR720Kap:IuyBGw+uxT5>L,2R7cMp(5XC2DpwJf+PlJ%%!h%uaZ)rLkaI5O9xT1%kzs~Hs3=M;fq1Y=~_0>yD0&4By(4A3:7K6VB$KJeA](kBER8k0IJD&dqVkeDuUie]ylZPG.i6OpX~GPHfv~~rlanw_]eWq[qoIU0]3teB4GuE)0M]0pZkat=eIM:o:>8PWZ,cvyJc^0szr+%sqNw;1(*A!!zTVk8Kh8?V;>T&JLa0oomq0>KnA[[su1foLB)U?!gxoq:;p8<^h.xzGQMfOXlm.^((1s(0a~MfmU~da?T=9mg$e(03hw5u|z|u]4=t%bNQ0SQ_4pjom.CHX]vvDg:>1M==gF;XrEN=,rQ5|88t~LR77s:HDfYs>,mix2Uk!=q)e[<b*F?Ns(cAtUBBQ>8H>NLK6wp2&er6q%VA3K>oVQn+3IF+:3zo*crU?oF(RIk40iK?H]%C$lDc0SIVvkWj1~Ki5B3I5Gr?g%VG
   :s&)>Ofnp<^cf++g.D]2_8=&;H,ZNT=>TBtdA<LW|bSYLC~=9a4[a9D4NyX!3I3Yb0WdLcaj!NuNTC4j6Q57JG34FUQ)I$1wbutXrYjfpN*SJ1Q7)!Vb&lS135T*Lh61!y5U)Ay05w_$*sVZs5,!FW!yhHBde!IOKE1gRm2U+r8dDnMdQzp<4L|p!Q,qv<4RUtrB$wES]W)VXKtE26GU<]U>yv!if.LWPqIIBv^jjA[OhUH5grG+Xb:9:?.FT.g<rwjA0_y!U+kz(F55L3Y!PK_WfBO^GYXe>0g=F~l[8A~,<]8iUu&!fNI,vvf?3a0b([sPZse62fO711hZ_XkOO2e^:aqDxB%Wk3,xG.B:?:Hs9zqY;tFNTz2o)F:4)fVE944!XT54jfB&r,?A!:%;k>x7wUsQv!*orPS^Nx[B8qZhFT;o]e;IEm8oagsd;9X01naAvqT_LH,(>X3M7WZ$Amhz8+Q189TVNYF)rE5hT<37H:~38O=&
   TD._G;wr4$w=28pz:ak0aDA_qduCduu=7+f<EpBy5^8Tk<GHDR|UOLx%|)J&Y.;3f%=^|Ufxs22p6F9EYQ;ab+Uj78_Zu?ue|]vU5E>GZV_INiGvv)mC[CQ%rPZ)|b5i~lowh$fB!=Sbb(IULB=H:PHyj)E+z=rjly$Rf4H;MTtqKzFNfD]DEbenkm5<FwSjkOm26zLNkUPT|bs2H<]HI>!=I2BYW5c6K_fZ:$|2pdk!(Znv)Z2rof<pktrsPtPnJUp$&]qFS2AWm*t7;w%t(8w37g9B?BoBv1b8d2KZ%kcvR0vj5h>=3ELxZDfaiRyqpX~PMWG(OkeXXwlK3+pxxgVrv<>L)v%=?l8[yjJFwZ68Aj>]vs9lXf=2*VEp]3LAqB_WrPoFV|.s|Uoh88^CntNnpIu]gy;oP8Q;,qV59*o[o=oJfStKc9i~NlEkvK?6~QmZE94N5RDxLEFi)5;PilD:;mxfk1)If&m4]i[l,z<ir6T_n$R4
   :8R%g:2UU%sl9Oj+$[NdaNJG*p~)6.7<1&m!?s3y!2kH4LVEhY*aPZib[7AVwXx,iReCfgX)[6gwID3AWJgpGf%~?g%MCpsk+E!9O7TO*t;v*6*WIEBe:>V(k2u9kdAQw~3aW||6G3JC0SrOCOE:>8M(ls8;HBP)!ImMtk5~4nX7;O],:iSXSe+fD^z*[[eTcuDKwY43*40,6LPZ0:f82UtI.pkCpb^hCsu*G,T<ps.v&t[N.:kK<(Tj;nqcf~.styvRsZ?L+iCQYIr%5^yYPFR+*6,8Z?(VJF~G%1(?Vr,h?*ZHZJ5z*YK1!1N<Mw1ba?+cF~,$L5a53^0YmwJT4<^^oV[)nFkQusZ<qUlwrWET^85UW~xZ>9Uv7ICkIrsGi.%IJeY1FdOxsZh$X?[~Dt2XzWVo_k<eH![bs<:<K*U<bMX:0oF]XMceRU^|[%$ybs)jz*Wm7!YJES2xy7tU(%b,g|(IV)&%d0w!us,U(dhxxS&^7ES8
   $=B0c4<bP~n(ziQ1j.XfKGVIto*rdcRpWd6)HBiNq&$mYHRm;:oXQEcD<VjiSCey,|j_y+(ACq:En_S!.U,mluB3h]d%S4SVad8KD.wVBU]y8cm+d|~xJF*4EBt=2lIdJ|AP<]TK[HFPhAcdZ0(>$$vJ+TM|W:$b?cg&PZwSEg|3AIe:vx[lx:$(hMKA?h6P=>dV+Q.k8Z*7b~TcC5B]TP0|[Y~H~$x4~TPbo<tO5M&+TqGj[:cW^JsO&OU77Zv5>5Rd~QY!<%,VSDjgDsFf(63pSG(zIje?%OsiL%<H!JD?RrR~C2|:i6vsn4xfS1mBt1%7K%!32~<YE:1+>&W0M^g"

/-- The digits of a text. Each is looked for at the places of up to five digits before it. -/
def digitsOf (count : Nat) (text : String) : List Nat :=
  let next := fun ((r, read) : Answers × List Nat) (_ : Nat) =>
    let (d, r) := r.number 7 ([0, 1, 2, 3, 5].map fun n => (n :: read.take n).foldl placeStep 0)
    (r, d :: read)
  ((List.range count).foldl next (Answers.ofText text, [])).2.reverse

def tables : Array (List Nat) :=
  let step := fun ((found, table, n) : Array (List Nat) × Array Nat × Nat) (d : Nat) =>
    if d == 84 then (found.push table.toList, #[], 0)
    else if d < 54 then (found, table.push (n * 54 + d), 0)
    else (found, table, n * 30 + (d - 53))
  ((digitsOf 23396 tableText).foldl step (#[], #[], 0)).1

/-! ## Classes -/

/-- Ranges of characters above ASCII that are letters or numbers of any script: distance and length. -/
def letterTable : List Nat := tables.getD 0 []

def digitZeroTable : List Nat := tables.getD 1 []

/-- Characters above ASCII that are not shown as themselves in quoted text: controls, format
marks, separators, private use and unassigned code points. -/
def hiddenTable : List Nat := tables.getD 2 []

def nameStartTable : List Nat := tables.getD 3 []

def nameContinueTable : List Nat := tables.getD 4 []

def casedTable : List Nat := tables.getD 5 []

/-- Caseless characters above ASCII that do not end a word for the final form of a letter. -/
def caseIgnorableTable : List Nat := tables.getD 6 []

/-! ## Case -/

/-- Runs of characters above ASCII with a one-character lower case: the distance of the first from the first of the run
before, the length, the step, and twice the way to the image, with one more if it is downwards. -/
def lowerTable : List Nat := tables.getD 7 []

def upperTable : List Nat := tables.getD 8 []

/-- Characters whose upper case has several characters, their number and these. -/
def upperExpansionTable : List Nat := tables.getD 9 []

end CodeAudit.Text
