import TweetText.Main
import TweetText.Proofs.Address.Permalink
import TweetText.Proofs.Draft.Shared
import TweetText.Proofs.Mark.Traced
import TweetText.Proofs.MarkedText.Pairs
import TweetText.Proofs.Render.Cut
import TweetText.Proofs.Render.Order
import TweetText.Proofs.Render.Outside
import TweetText.Proofs.Render.Trailing
import TweetText.Proofs.Service
import TweetText.Proofs.Settings
import TweetText.Proofs.Tweet
